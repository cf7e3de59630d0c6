import DevicePairing.Bytes.Hex
import DevicePairing.Tape

/-!
# Device identifiers

A device is known by a universally unique identifier of sixteen bytes. It is written in lower case with
hyphens after 8, 12, 16 and 20 digits, and read in that form, without hyphens, in braces, or after
`urn:uuid:`, always in either case. `ofText?_text` says that reading undoes writing.

Identifiers are ordered by the number their bytes spell, most significant first.
-/

namespace DevicePairing

/-- A universally unique identifier. -/
structure Uuid where
  /-- The sixteen bytes, as they are written. -/
  octets : Block 16
  deriving DecidableEq

namespace Uuid

/-- The bytes of an identifier. -/
def toBytes (u : Uuid) : Bytes := u.octets.val

/-- An identifier has sixteen bytes. -/
@[simp] theorem length_toBytes (u : Uuid) : u.toBytes.length = 16 := u.octets.property

/-- The identifier with the given bytes, when there are sixteen. -/
def ofBytes? (bs : Bytes) : Option Uuid := (Block.ofBytes? 16 bs).map Uuid.mk

/-- The bytes of an identifier are the identifier again. -/
@[simp] theorem ofBytes?_toBytes (u : Uuid) : ofBytes? u.toBytes = some u := by
  simp [ofBytes?, toBytes]

/-- The identifier of sixteen zeros, which names no device. -/
def nil : Uuid := ⟨⟨List.replicate 16 0, by simp⟩⟩

/-- The number the bytes spell; identifiers are sorted by it. -/
def toNat (u : Uuid) : Nat := ofBigEndian u.toBytes

/-- Identifiers with the same number are the same. -/
theorem toNat_inj {u v : Uuid} (h : u.toNat = v.toNat) : u = v := by
  have hb : u.toBytes = v.toBytes := by
    rw [← bigEndian_ofBigEndian u.toBytes, ← bigEndian_ofBigEndian v.toBytes]
    simp only [length_toBytes]
    exact congrArg (bigEndian 16) h
  have := congrArg ofBytes? hb
  simpa using this

/-- A fresh random identifier: a number of sixteen drawn bytes, least significant first, in which the
version and variant bits are set. -/
def fresh (t : Tape) : Uuid × Tape :=
  let (bs, t) := t.draw 16
  let drawn := bs.val.reverse
  let marked := (drawn.set 6 ((drawn.getD 6 0 &&& 0x0f) ||| 0x40)).set 8
    ((drawn.getD 8 0 &&& 0x3f) ||| 0x80)
  (⟨⟨marked, by simp [marked, drawn, bs.property]⟩⟩, t)

/-! ## Text -/

/-- The characters of an identifier: hexadecimal digits in groups of 8, 4, 4, 4 and 12. -/
def chars (u : Uuid) : List Char :=
  let cs := hexChars u.toBytes
  cs.take 8 ++ '-' :: ((cs.drop 8).take 4 ++ '-' :: ((cs.drop 12).take 4 ++ '-' ::
    ((cs.drop 16).take 4 ++ '-' :: cs.drop 20)))

/-- The text of an identifier. -/
def text (u : Uuid) : String := String.ofList u.chars

/-- The identifier spelled by thirty-two digits. -/
def ofDigits? (cs : List Char) : Option Uuid := (ofHexChars? cs).bind ofBytes?

/-- The identifier spelled by digits in hyphenated groups. -/
def ofHyphenated? (cs : List Char) : Option Uuid :=
  if cs.length = 36 ∧ cs[8]? = some '-' ∧ cs[13]? = some '-' ∧ cs[18]? = some '-' ∧
      cs[23]? = some '-' then
    ofDigits? (cs.take 8 ++ (cs.drop 9).take 4 ++ (cs.drop 14).take 4 ++ (cs.drop 19).take 4 ++
      cs.drop 24)
  else none

/-- Reads an identifier in any of its four spellings, told apart by their lengths. -/
def ofChars? (cs : List Char) : Option Uuid :=
  if cs.length = 32 then ofDigits? cs
  else if cs.length = 36 then ofHyphenated? cs
  else if cs.length = 38 then
    if cs.head? = some '{' ∧ cs.getLast? = some '}' then ofHyphenated? ((cs.drop 1).dropLast)
    else none
  else if (cs.take 9).map Char.toLower = "urn:uuid:".toList then ofHyphenated? (cs.drop 9)
  else none

/-- Reads an identifier from text. -/
def ofText? (s : String) : Option Uuid := ofChars? s.toList

/-- Dropping a group and the hyphen after it. -/
theorem drop_group {a : List Char} {n : Nat} (x : Char) (b : List Char) (h : a.length = n) :
    (a ++ x :: b).drop (n + 1) = b := by
  subst h
  simp

/-- The text of an identifier is read as the identifier. -/
theorem ofText?_text (u : Uuid) : ofText? u.text = some u := by
  have hlen : (hexChars u.toBytes).length = 32 := by simp [length_hexChars]
  have hrt := ofHexChars?_hexChars u.toBytes
  obtain ⟨cs, hcs⟩ : ∃ cs, cs = hexChars u.toBytes := ⟨_, rfl⟩
  rw [← hcs] at hlen hrt
  have hsplit : cs.take 8 ++ ((cs.drop 8).take 4 ++ ((cs.drop 12).take 4 ++
      ((cs.drop 16).take 4 ++ cs.drop 20))) = cs := by
    have h3 : (cs.drop 16).take 4 ++ cs.drop 20 = cs.drop 16 := by
      rw [show cs.drop 20 = (cs.drop 16).drop 4 by simp, List.take_append_drop]
    have h2 : (cs.drop 12).take 4 ++ cs.drop 16 = cs.drop 12 := by
      rw [show cs.drop 16 = (cs.drop 12).drop 4 by simp, List.take_append_drop]
    have h1 : (cs.drop 8).take 4 ++ cs.drop 12 = cs.drop 8 := by
      rw [show cs.drop 12 = (cs.drop 8).drop 4 by simp, List.take_append_drop]
    rw [h3, h2, h1, List.take_append_drop]
  have l0 : (cs.take 8).length = 8 := by simp [hlen]
  have l1 : ((cs.drop 8).take 4).length = 4 := by simp [hlen]
  have l2 : ((cs.drop 12).take 4).length = 4 := by simp [hlen]
  have l3 : ((cs.drop 16).take 4).length = 4 := by simp [hlen]
  have l4 : (cs.drop 20).length = 12 := by simp [hlen]
  simp only [ofText?, text, String.toList_ofList, chars, ← hcs]
  generalize cs.take 8 = a at *
  generalize (cs.drop 8).take 4 = b at *
  generalize (cs.drop 12).take 4 = c at *
  generalize (cs.drop 16).take 4 = d at *
  generalize cs.drop 20 = e at *
  have hall : (a ++ '-' :: (b ++ '-' :: (c ++ '-' :: (d ++ '-' :: e)))).length = 36 := by
    simp [l0, l1, l2, l3, l4]
  simp only [ofChars?, hall]
  rw [if_neg (by decide), if_pos trivial]
  simp only [ofHyphenated?, hall]
  have t0 : (a ++ '-' :: (b ++ '-' :: (c ++ '-' :: (d ++ '-' :: e)))).take 8 = a := by
    simp [l0]
  have p0 : (a ++ '-' :: (b ++ '-' :: (c ++ '-' :: (d ++ '-' :: e))))[8]? = some '-' := by
    simp [l0]
  have p1 : (a ++ '-' :: (b ++ '-' :: (c ++ '-' :: (d ++ '-' :: e))))[13]? = some '-' := by
    simp [List.getElem?_append, l0, l1]
  have p2 : (a ++ '-' :: (b ++ '-' :: (c ++ '-' :: (d ++ '-' :: e))))[18]? = some '-' := by
    simp [List.getElem?_append, l0, l1, l2]
  have p3 : (a ++ '-' :: (b ++ '-' :: (c ++ '-' :: (d ++ '-' :: e))))[23]? = some '-' := by
    simp [List.getElem?_append, l0, l1, l2, l3]
  have d0 := drop_group '-' (b ++ '-' :: (c ++ '-' :: (d ++ '-' :: e))) l0
  have d1 : (a ++ '-' :: (b ++ '-' :: (c ++ '-' :: (d ++ '-' :: e)))).drop 14
      = c ++ '-' :: (d ++ '-' :: e) := by
    rw [← List.drop_drop (i := 5) (j := 9), d0, drop_group '-' _ l1]
  have d2 : (a ++ '-' :: (b ++ '-' :: (c ++ '-' :: (d ++ '-' :: e)))).drop 19
      = d ++ '-' :: e := by
    rw [← List.drop_drop (i := 5) (j := 14), d1, drop_group '-' _ l2]
  have d3 : (a ++ '-' :: (b ++ '-' :: (c ++ '-' :: (d ++ '-' :: e)))).drop 24 = e := by
    rw [← List.drop_drop (i := 5) (j := 19), d2, drop_group '-' _ l3]
  rw [if_pos ⟨trivial, p0, p1, p2, p3⟩, t0, d0, d1, d2, d3]
  simp only [List.take_append, l1, l2, l3, Nat.sub_self, List.take_zero, List.append_nil,
    List.append_assoc, List.take_of_length_le (Nat.le_of_eq l1), List.take_of_length_le (Nat.le_of_eq l2),
    List.take_of_length_le (Nat.le_of_eq l3), hsplit, ofDigits?, hrt, Option.bind_some,
    ofBytes?_toBytes]

end Uuid

end DevicePairing
