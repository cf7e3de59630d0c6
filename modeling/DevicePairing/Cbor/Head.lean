import DevicePairing.Bytes

/-!
# Item heads

A data item of the concise binary object representation (RFC 8949) starts with a head: a major type in
the top three bits of the first byte and an argument, small ones in the other five bits and larger ones
in one, two, four or eight more bytes. Writing always takes the shortest form; reading takes any.

`Head.read?_write` says that a written head reads back whatever follows it.
-/

namespace DevicePairing.Cbor

/-- The head of a data item. A length of none means that the item ends at a stop mark. -/
inductive Head where
  /-- A number. -/
  | unsigned (n : Nat)
  /-- A number below zero; `n` stands for `-1 - n`. -/
  | negative (n : Nat)
  /-- A byte string. -/
  | octets (length : Option Nat)
  /-- A text in UTF-8. -/
  | text (length : Option Nat)
  /-- A sequence of items. -/
  | array (length : Option Nat)
  /-- A sequence of pairs of items. -/
  | map (length : Option Nat)
  /-- A remark on the item that follows. -/
  | tag (n : Nat)
  /-- A truth value. -/
  | flag (b : Bool)
  /-- The null value. -/
  | null
  /-- The undefined value. -/
  | undefined
  /-- A floating-point number, whose digits are not kept. -/
  | float
  /-- The mark that ends an item without a length. -/
  | stop
  deriving DecidableEq

/-- The first `n` bytes and the rest; none when there are fewer. -/
def takeExactly (n : Nat) (bs : Bytes) : Option (Bytes × Bytes) :=
  if (bs.take n).length = n then some (bs.take n, bs.drop n) else none

/-- Where enough bytes stand in front, they are taken and the rest is left. -/
theorem takeExactly_append {n : Nat} {front : Bytes} (rest : Bytes) (h : front.length = n) :
    takeExactly n (front ++ rest) = some (front, rest) := by
  subst h
  simp [takeExactly]

/-- Bytes are taken exactly if that many stand in front. -/
theorem takeExactly_eq_some_iff {n : Nat} {bs front rest : Bytes} :
    takeExactly n bs = some (front, rest) ↔ bs = front ++ rest ∧ front.length = n := by
  constructor
  · intro h
    unfold takeExactly at h
    split at h
    · next hlen =>
      simp only [Option.some.injEq, Prod.mk.injEq] at h
      obtain ⟨rfl, rfl⟩ := h
      exact ⟨(List.take_append_drop n bs).symm, hlen⟩
    · simp at h
  · rintro ⟨rfl, hlen⟩
    exact takeExactly_append rest hlen

/-- An argument in `width` bytes, most significant first. -/
def readArgument (width : Nat) (bs : Bytes) : Option (Nat × Bytes) :=
  (takeExactly width bs).map fun p => (ofBigEndian p.1, p.2)

/-- The argument that the low five bits of a first byte announce. The inner none stands for the code of
items without a length; three codes are reserved. -/
def readInfo (info : Nat) (bs : Bytes) : Option (Option Nat × Bytes) :=
  if info < 24 then some (some info, bs)
  else if info = 24 then (readArgument 1 bs).map fun p => (some p.1, p.2)
  else if info = 25 then (readArgument 2 bs).map fun p => (some p.1, p.2)
  else if info = 26 then (readArgument 4 bs).map fun p => (some p.1, p.2)
  else if info = 27 then (readArgument 8 bs).map fun p => (some p.1, p.2)
  else if info = 31 then some (none, bs)
  else none

/-- The head with a given major type below seven and argument; numbers and tags need an argument. -/
def Head.ofMajor? : (major : Nat) → (argument : Option Nat) → Option Head
  | 0, some n => some (.unsigned n)
  | 1, some n => some (.negative n)
  | 2, l => some (.octets l)
  | 3, l => some (.text l)
  | 4, l => some (.array l)
  | 5, l => some (.map l)
  | 6, some n => some (.tag n)
  | _, _ => none

/-- The head that a first byte of major type seven stands for, with the bytes after it. The unassigned
simple values are refused. -/
def Head.readSimple? (info : Nat) (bs : Bytes) : Option (Head × Bytes) :=
  if info = 20 then some (.flag false, bs)
  else if info = 21 then some (.flag true, bs)
  else if info = 22 then some (.null, bs)
  else if info = 23 then some (.undefined, bs)
  else if info = 25 then (takeExactly 2 bs).map fun p => (.float, p.2)
  else if info = 26 then (takeExactly 4 bs).map fun p => (.float, p.2)
  else if info = 27 then (takeExactly 8 bs).map fun p => (.float, p.2)
  else if info = 31 then some (.stop, bs)
  else none

/-- The head at the front of a byte string. -/
def Head.read? : Bytes → Option (Head × Bytes)
  | [] => none
  | b :: bs =>
    let major := b.toNat / 32
    let info := b.toNat % 32
    if major = 7 then Head.readSimple? info bs
    else do
      let (argument, rest) ← readInfo info bs
      let head ← Head.ofMajor? major argument
      return (head, rest)

/-- The shortest head of a major type with an argument that eight bytes can spell. -/
def writeHead (major n : Nat) : Bytes :=
  if n < 24 then [UInt8.ofNat (32 * major + n)]
  else if n < capacity 1 then UInt8.ofNat (32 * major + 24) :: bigEndian 1 n
  else if n < capacity 2 then UInt8.ofNat (32 * major + 25) :: bigEndian 2 n
  else if n < capacity 4 then UInt8.ofNat (32 * major + 26) :: bigEndian 4 n
  else UInt8.ofNat (32 * major + 27) :: bigEndian 8 n

/-- An argument that fits its width is read as it was written. -/
theorem readArgument_bigEndian {width n : Nat} (rest : Bytes) (h : n < capacity width) :
    readArgument width (bigEndian width n ++ rest) = some (n, rest) := by
  unfold readArgument
  rw [takeExactly_append rest (length_bigEndian ..)]
  simp [ofBigEndian_bigEndian, Nat.mod_eq_of_lt h]

/-- The first byte of a head holds the major type in its upper three bits and the rest in its lower five. -/
theorem Head.read?_cons {major info : Nat} (hm : major < 7) (hi : info < 32) (bs : Bytes) :
    Head.read? (UInt8.ofNat (32 * major + info) :: bs) = (do
      let (argument, rest) ← readInfo info bs
      let head ← Head.ofMajor? major argument
      return (head, rest)) := by
  have hn : (UInt8.ofNat (32 * major + info)).toNat = 32 * major + info := by
    rw [UInt8.toNat_ofNat']
    omega
  have hmajor : (32 * major + info) / 32 = major := by omega
  have hinfo : (32 * major + info) % 32 = info := by omega
  simp only [Head.read?, hn, hmajor, hinfo]
  rw [if_neg (by omega)]

/-- A written head reads back, whatever bytes follow. -/
theorem Head.read?_write {major n : Nat} {head : Head} (hm : major < 7) (hn : n < capacity 8)
    (hhead : Head.ofMajor? major (some n) = some head) (rest : Bytes) :
    Head.read? (writeHead major n ++ rest) = some (head, rest) := by
  unfold writeHead
  split
  · next h =>
    rw [List.cons_append, List.nil_append, Head.read?_cons hm (by omega)]
    simp [readInfo, h, hhead]
  split
  · next h =>
    rw [List.cons_append, Head.read?_cons hm (by omega)]
    simp [readInfo, readArgument_bigEndian rest h, hhead]
  split
  · next h =>
    rw [List.cons_append, Head.read?_cons hm (by omega)]
    simp [readInfo, readArgument_bigEndian rest h, hhead]
  split
  · next h =>
    rw [List.cons_append, Head.read?_cons hm (by omega)]
    simp [readInfo, readArgument_bigEndian rest h, hhead]
  · rw [List.cons_append, Head.read?_cons hm (by omega)]
    simp [readInfo, readArgument_bigEndian rest hn, hhead]

end DevicePairing.Cbor
