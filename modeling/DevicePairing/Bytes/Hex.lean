import DevicePairing.Bytes

/-!
# Hexadecimal text

Two lower-case digits a byte, no separators. `ofHex?_toHex` says that reading undoes writing; the
reader also takes upper-case digits, since identifiers may be typed by a person.
-/

namespace DevicePairing

/-- The digit of a number below sixteen, in lower case. -/
def hexDigit (n : Nat) : Char :=
  if n < 10 then Char.ofNat (48 + n) else Char.ofNat (87 + n)

/-- The value of a hexadecimal digit of either case. -/
def hexValue? (c : Char) : Option Nat :=
  if '0' ≤ c ∧ c ≤ '9' then some (c.toNat - 48)
  else if 'a' ≤ c ∧ c ≤ 'f' then some (c.toNat - 87)
  else if 'A' ≤ c ∧ c ≤ 'F' then some (c.toNat - 55)
  else none

/-- The characters of a byte string in hexadecimal. -/
def hexChars (bs : Bytes) : List Char :=
  bs.flatMap fun b => [hexDigit (b.toNat / 16), hexDigit (b.toNat % 16)]

/-- A byte string in hexadecimal. -/
def toHex (bs : Bytes) : String := String.ofList (hexChars bs)

/-- The byte string that a run of hexadecimal digits spells; none when a character is not a digit or
their number is odd. -/
def ofHexChars? : List Char → Option Bytes
  | [] => some []
  | [_] => none
  | hi :: lo :: rest => do
    let h ← hexValue? hi
    let l ← hexValue? lo
    let bs ← ofHexChars? rest
    return UInt8.ofNat (16 * h + l) :: bs

/-- The byte string that a hexadecimal text spells. -/
def ofHex? (s : String) : Option Bytes := ofHexChars? s.toList

/-- Every byte is spelled with two digits. -/
theorem length_hexChars (bs : Bytes) : (hexChars bs).length = 2 * bs.length := by
  induction bs with
  | nil => rfl
  | cons b bs ih =>
    simp only [hexChars, List.flatMap_cons, List.length_append, List.length_cons,
      List.length_nil] at ih ⊢
    omega

/-- Every digit that is written is read as what it stands for. -/
theorem hexValue?_hexDigit : ∀ n : Fin 16, hexValue? (hexDigit n.val) = some n.val := by decide

/-- Bytes are read from the digits they are written in. -/
theorem ofHexChars?_hexChars (bs : Bytes) : ofHexChars? (hexChars bs) = some bs := by
  induction bs with
  | nil => rfl
  | cons b bs ih =>
    have hb : b.toNat < 256 := b.toNat_lt
    have hhi := hexValue?_hexDigit ⟨b.toNat / 16, by omega⟩
    have hlo := hexValue?_hexDigit ⟨b.toNat % 16, by omega⟩
    have hval : UInt8.ofNat (16 * (b.toNat / 16) + b.toNat % 16) = b := by
      rw [Nat.div_add_mod]
      simp
    simp only [hexChars, List.flatMap_cons, List.cons_append, List.nil_append]
    simp only [hexChars] at ih
    simp only [ofHexChars?] at hhi hlo ⊢
    rw [hhi, hlo, ih]
    exact congrArg (fun x => some (x :: bs)) hval

/-- Bytes are read from their hexadecimal text. -/
@[simp] theorem ofHex?_toHex (bs : Bytes) : ofHex? (toHex bs) = some bs := by
  simp [ofHex?, toHex, ofHexChars?_hexChars]

end DevicePairing
