import DevicePairing.Bytes.Hex

/-!
# JSON values

Settings and snapshots of a store are kept as JSON texts. A value keeps what its text said and decides
nothing: a number stays the literal it was written as, and a text stays a list of characters and of
16-bit units written by their number, because a value that nobody asks for may hold half of a surrogate
pair or a number that fits nowhere and still be well formed. The questions at the end of this file are
where such values are refused.
-/

namespace DevicePairing

/-- One element of a JSON text: a character, or a 16-bit unit written as an escape. -/
inductive TextUnit where
  /-- A character. -/
  | char (c : Char)
  /-- A unit given by its number, below `2 ^ 16`. -/
  | code (n : Nat)
  deriving DecidableEq

/-- The characters that a list of units spells; none when a surrogate lacks its other half. -/
def TextUnit.spell? : List TextUnit → Option (List Char)
  | [] => some []
  | .char c :: us => (spell? us).map (c :: ·)
  | .code hi :: .code lo :: us =>
    if 0xd800 ≤ hi ∧ hi < 0xdc00 then
      if 0xdc00 ≤ lo ∧ lo < 0xe000 then
        (spell? us).map (Char.ofNat (0x10000 + (hi - 0xd800) * 0x400 + (lo - 0xdc00)) :: ·)
      else none
    else if 0xdc00 ≤ hi ∧ hi < 0xe000 then none
    else (spell? (.code lo :: us)).map (Char.ofNat hi :: ·)
  | .code n :: us =>
    if 0xd800 ≤ n ∧ n < 0xe000 then none else (spell? us).map (Char.ofNat n :: ·)

/-- A text with no lone surrogate among its units is spelled by its characters. -/
@[simp] theorem TextUnit.spell?_map_char (cs : List Char) :
    TextUnit.spell? (cs.map .char) = some cs := by
  induction cs with
  | nil => rfl
  | cons c cs ih => simp [TextUnit.spell?, ih]

/-- A JSON value. -/
inductive Json where
  /-- The null value. -/
  | null
  /-- A truth value. -/
  | bool (b : Bool)
  /-- A number, as the characters of its literal. -/
  | number (literal : List Char)
  /-- A text. -/
  | text (units : List TextUnit)
  /-- A list of values. -/
  | array (items : List Json)
  /-- Named values in the order written. -/
  | object (members : List (List TextUnit × Json))

namespace Json

/-- The text with the given characters. -/
def ofString (s : String) : Json := .text (s.toList.map .char)

/-- The number with the given value. -/
def ofNat (n : Nat) : Json := .number (Nat.toDigits 10 n)

/-- The list of the numbers of a byte string. -/
def ofBytes (bs : Bytes) : Json := .array (bs.map fun b => ofNat b.toNat)

/-- An object with plain names. -/
def ofFields (fields : List (String × Json)) : Json :=
  .object (fields.map fun f => (f.1.toList.map .char, f.2))

/-! ## Questions -/

/-- The value of a run of decimal digits. -/
def digitsValue (cs : List Char) : Nat := cs.foldl (fun n c => 10 * n + (c.toNat - 48)) 0

/-- The number below `bound` that a value is. A sign, a fraction or an exponent is refused even where
the number is whole. -/
def nat? (bound : Nat) : Json → Option Nat
  | .number literal =>
    if literal ≠ [] ∧ literal.all Char.isDigit ∧ digitsValue literal < bound then
      some (digitsValue literal)
    else none
  | _ => none

/-- The characters of a text value. -/
def chars? : Json → Option (List Char)
  | .text units => TextUnit.spell? units
  | _ => none

/-- The bytes of a list of numbers below 256. -/
def bytes? : Json → Option Bytes
  | .array items => items.mapM fun v => (v.nat? 256).map UInt8.ofNat
  | _ => none

/-- What each of the given names is set to in a list of members: none where a name is missing. Refused
when a name is set twice, or when some name does not spell a text. -/
def lookup? (names : List String) (members : List (List TextUnit × Json)) :
    Option (List (Option Json)) := do
  let spelled ← members.mapM fun m => (TextUnit.spell? m.1).map fun cs => (cs, m.2)
  names.mapM fun name =>
    match spelled.filter fun m => m.1 = name.toList with
    | [] => some none
    | [m] => some (some m.2)
    | _ => none

/-- The values of a record with the given names: an object, or a list of them in order from which some
of the last may be missing. -/
def fields? (names : List String) : Json → Option (List (Option Json))
  | .object members => lookup? names members
  | .array items =>
    if items.length ≤ names.length then
      some (items.map some ++ List.replicate (names.length - items.length) none)
    else none
  | _ => none

end Json

end DevicePairing
