import DevicePairing.Bytes

/-!
# UTF-8 well-formedness

Whether a byte string is the UTF-8 form of some text: no overlong form, no surrogate, nothing above
U+10FFFF. The check reads one byte at a time and remembers how many continuation bytes are owed and
between which bounds the next one must lie.
-/

namespace DevicePairing.Utf8

/-- For a byte that starts a character: the continuation bytes it owes, and the bounds of the first of
them. -/
def lead (b : UInt8) : Option (Nat × UInt8 × UInt8) :=
  if b ≤ 0x7f then some (0, 0x80, 0xbf)
  else if 0xc2 ≤ b ∧ b ≤ 0xdf then some (1, 0x80, 0xbf)
  else if b = 0xe0 then some (2, 0xa0, 0xbf)
  else if b = 0xed then some (2, 0x80, 0x9f)
  else if 0xe1 ≤ b ∧ b ≤ 0xef then some (2, 0x80, 0xbf)
  else if b = 0xf0 then some (3, 0x90, 0xbf)
  else if 0xf1 ≤ b ∧ b ≤ 0xf3 then some (3, 0x80, 0xbf)
  else if b = 0xf4 then some (3, 0x80, 0x8f)
  else none

/-- Whether the bytes complete a text of which `owed` continuation bytes are outstanding, the next one
between `low` and `high`. -/
def completes : (owed : Nat) → (low high : UInt8) → Bytes → Bool
  | 0, _, _, [] => true
  | _ + 1, _, _, [] => false
  | 0, _, _, b :: bs =>
    match lead b with
    | some (owed, low, high) => completes owed low high bs
    | none => false
  | owed + 1, low, high, b :: bs => decide (low ≤ b ∧ b ≤ high) && completes owed 0x80 0xbf bs

/-- Whether a byte string is well-formed UTF-8. -/
def valid (bs : Bytes) : Bool := completes 0 0 0 bs

end DevicePairing.Utf8
