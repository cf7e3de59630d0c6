/-!
# Byte strings

Frames, keys, nonces and payloads are lists of bytes. This file fixes the two types used for them
everywhere (`Bytes` for a string of any length, `Block n` for one whose length is part of its type),
numbers written in a fixed count of bytes, and the cut of a string into pieces of equal length.

`ofLittleEndian_littleEndian` and `littleEndian_ofLittleEndian` say that writing and reading a number
undo each other; `flatten_chunksOf` says that cutting loses nothing. Nothing here knows about any
wire format.
-/

namespace DevicePairing

/-- A byte string of any length. -/
abbrev Bytes := List UInt8

/-- A byte string of `n` bytes. -/
abbrev Block (n : Nat) := { bs : Bytes // bs.length = n }

/-- The block of `n` bytes with the given contents, when the length is right. -/
def Block.ofBytes? (n : Nat) (bs : Bytes) : Option (Block n) :=
  if h : bs.length = n then some ⟨bs, h⟩ else none

/-- The bytes of a block are a block again, the same one. -/
@[simp] theorem Block.ofBytes?_val {n : Nat} (b : Block n) : Block.ofBytes? n b.val = some b := by
  simp [Block.ofBytes?, b.property]

/-- Bytes make no block exactly if there are too many or too few of them. -/
theorem Block.ofBytes?_eq_none_iff {n : Nat} {bs : Bytes} :
    Block.ofBytes? n bs = none ↔ bs.length ≠ n := by
  simp [Block.ofBytes?]

/-- The bytes of an ASCII text. Characters beyond ASCII are reduced modulo 256, so this is meant for
fixed names only. -/
def ascii (s : String) : Bytes := s.toList.map fun c => UInt8.ofNat c.toNat

/-! ## Numbers in a fixed count of bytes -/

/-- How many numbers `width` bytes can spell, zero among them: 256 to the power of `width`. -/
def capacity : (width : Nat) → Nat
  | 0 => 1
  | w + 1 => 256 * capacity w

/-- `n` in `width` bytes, least significant byte first; what does not fit is dropped. -/
def littleEndian : (width : Nat) → (n : Nat) → Bytes
  | 0, _ => []
  | w + 1, n => UInt8.ofNat n :: littleEndian w (n / 256)

/-- The number a byte string spells, least significant byte first. -/
def ofLittleEndian : Bytes → Nat
  | [] => 0
  | b :: bs => b.toNat + 256 * ofLittleEndian bs

/-- `n` in `width` bytes, most significant byte first; what does not fit is dropped. -/
def bigEndian (width n : Nat) : Bytes := (littleEndian width n).reverse

/-- The number a byte string spells, most significant byte first. -/
def ofBigEndian (bs : Bytes) : Nat := ofLittleEndian bs.reverse

/-- A number is written with as many bytes as it is to have, least significant byte first. -/
@[simp] theorem length_littleEndian (w n : Nat) : (littleEndian w n).length = w := by
  induction w generalizing n with
  | zero => rfl
  | succ w ih => simp [littleEndian, ih]

/-- So it is with the most significant byte first. -/
@[simp] theorem length_bigEndian (w n : Nat) : (bigEndian w n).length = w := by
  simp [bigEndian]

/-- What bytes spell is below what as many bytes can hold. -/
theorem ofLittleEndian_lt (bs : Bytes) : ofLittleEndian bs < capacity bs.length := by
  induction bs with
  | nil => exact Nat.one_pos
  | cons b bs ih =>
    have hb : b.toNat < 256 := b.toNat_lt
    simp only [ofLittleEndian, List.length_cons, capacity]
    omega

/-- A number that is written and read again has lost what its bytes cannot hold. -/
theorem ofLittleEndian_littleEndian (w n : Nat) :
    ofLittleEndian (littleEndian w n) = n % capacity w := by
  induction w generalizing n with
  | zero => simp [littleEndian, ofLittleEndian, capacity, Nat.mod_one]
  | succ w ih =>
    have h : (UInt8.ofNat n).toNat = n % 256 := by simp
    simp only [littleEndian, ofLittleEndian, ih, h, capacity]
    rw [Nat.mod_mul]

/-- Bytes that are read and written again, with the same width, are the same bytes. -/
theorem littleEndian_ofLittleEndian (bs : Bytes) :
    littleEndian bs.length (ofLittleEndian bs) = bs := by
  induction bs with
  | nil => rfl
  | cons b bs ih =>
    have hb : b.toNat < 256 := b.toNat_lt
    have hdiv : (b.toNat + 256 * ofLittleEndian bs) / 256 = ofLittleEndian bs := by omega
    have hmod : UInt8.ofNat (b.toNat + 256 * ofLittleEndian bs) = b := by
      apply UInt8.toNat_inj.1
      simp
    simp only [List.length_cons, littleEndian, ofLittleEndian, hdiv, hmod, ih]

/-- A number that is written and read again has lost what its bytes cannot hold, in this order too. -/
theorem ofBigEndian_bigEndian (w n : Nat) : ofBigEndian (bigEndian w n) = n % capacity w := by
  simp [ofBigEndian, bigEndian, ofLittleEndian_littleEndian]

/-- Bytes that are read and written again are the same bytes in this order too. -/
theorem bigEndian_ofBigEndian (bs : Bytes) : bigEndian bs.length (ofBigEndian bs) = bs := by
  have h := littleEndian_ofLittleEndian bs.reverse
  rw [List.length_reverse] at h
  simp [ofBigEndian, bigEndian, h]

/-- What bytes spell is below what as many bytes can hold, in this order too. -/
theorem ofBigEndian_lt (bs : Bytes) : ofBigEndian bs < capacity bs.length := by
  have h := ofLittleEndian_lt bs.reverse
  rwa [List.length_reverse] at h

/-! ## Pieces of equal length -/

/-- Cuts a list into consecutive pieces of `n` elements, the last one possibly shorter. The empty list
has no pieces. -/
def chunksOf {α : Type} (n : Nat) (xs : List α) : List (List α) := go xs.length xs
where
  /-- The pieces of the list, at most `fuel` of them. -/
  go : (fuel : Nat) → List α → List (List α)
    | 0, _ => []
    | _ + 1, [] => []
    | fuel + 1, x :: xs => (x :: xs).take n :: go fuel ((x :: xs).drop n)

/-- Fuel for every element is enough, and more of it changes nothing. -/
theorem chunksOf.go_eq_go {α : Type} {n : Nat} (hn : 0 < n) :
    ∀ (f g : Nat) (xs : List α), xs.length ≤ f → xs.length ≤ g →
      chunksOf.go n f xs = chunksOf.go n g xs := by
  intro f
  induction f with
  | zero =>
    intro g xs hf _
    obtain rfl : xs = [] := List.eq_nil_of_length_eq_zero (by omega)
    cases g <;> rfl
  | succ f ih =>
    intro g xs hf hg
    cases xs with
    | nil => cases g <;> rfl
    | cons x xs =>
      cases g with
      | zero => simp at hg
      | succ g =>
        simp only [List.length_cons] at hf hg
        have hd : ((x :: xs).drop n).length ≤ xs.length := by simp; omega
        simp only [chunksOf.go]
        rw [ih g _ (by omega) (by omega)]

/-- Nothing has no pieces. -/
@[simp] theorem chunksOf_nil {α : Type} (n : Nat) : chunksOf n ([] : List α) = [] := rfl

/-- Of anything else the first piece is cut off, and then the rest is cut. -/
theorem chunksOf_of_ne_nil {α : Type} {n : Nat} (hn : 0 < n) {xs : List α} (h : xs ≠ []) :
    chunksOf n xs = xs.take n :: chunksOf n (xs.drop n) := by
  cases xs with
  | nil => exact absurd rfl h
  | cons x xs =>
    have hd : ((x :: xs).drop n).length ≤ xs.length := by simp; omega
    simp only [chunksOf, List.length_cons, chunksOf.go]
    rw [chunksOf.go_eq_go hn xs.length _ _ (by omega) (Nat.le_refl _)]

/-- Induction along the pieces of a list: what holds of the empty list, and of a list whenever it holds of what is
left behind the first piece of it, holds of every list. -/
@[elab_as_elim]
theorem chunksOf.induction {α : Type} {n : Nat} (hn : 0 < n) {motive : List α → Prop} (nil : motive [])
    (piece : ∀ xs, xs ≠ [] → motive (xs.drop n) → motive xs) (xs : List α) : motive xs := by
  induction hlen : xs.length using Nat.strongRecOn generalizing xs with
  | ind m ih =>
    by_cases h : xs = []
    · exact h ▸ nil
    · have hpos : 0 < xs.length := List.length_pos_iff.2 h
      exact piece xs h (ih (xs.drop n).length (by simp; omega) (xs.drop n) rfl)

/-- The pieces make up the whole. -/
theorem flatten_chunksOf {α : Type} {n : Nat} (hn : 0 < n) (xs : List α) :
    (chunksOf n xs).flatten = xs := by
  induction xs using chunksOf.induction hn with
  | nil => rfl
  | piece xs h ih => rw [chunksOf_of_ne_nil hn h, List.flatten_cons, ih, List.take_append_drop]

end DevicePairing
