import DevicePairing.Crypto.Suite
import DevicePairing.SessionKey

/-!
# The cipher in use opens what it seals

The stream cipher is an exclusive or with a key stream that depends on the position alone, so to apply it
twice is to do nothing (`ChaCha20.xorStream_xorStream`). The tag of a cipher text is a function of it, so
what was sealed passes the check. This is the law `Suite.Opens` for the primitives in use.

`Suite.Seals` is the other side of it: every text but the very long can be sealed.
-/

namespace DevicePairing

/-! ## The key stream applied twice -/

namespace ChaCha20

/-- A byte combined twice with the same byte is what it was. -/
theorem zipWith_xor_cancel (xs ks : Bytes) (h : xs.length ≤ ks.length) :
    List.zipWith (· ^^^ ·) (List.zipWith (· ^^^ ·) xs ks) ks = xs := by
  induction xs generalizing ks with
  | nil => rfl
  | cons x xs ih =>
    cases ks with
    | nil => simp at h
    | cons k ks =>
      simp only [List.length_cons, Nat.add_le_add_iff_right] at h
      rw [List.zipWith_cons_cons, List.zipWith_cons_cons, ih ks h, UInt8.xor_assoc,
        UInt8.xor_self, UInt8.xor_zero]

variable (key : Block 32) (nonce : Block 12)

/-- The first block of the key stream is for the first sixty-four bytes, the next ones for the rest. -/
theorem xorStream_of_ne_nil {data : Bytes} (h : data ≠ []) (counter : Nat) :
    xorStream key nonce counter data =
      List.zipWith (· ^^^ ·) (data.take 64) (block key counter nonce) ++
        xorStream key nonce (counter + 1) (data.drop 64) := by
  unfold xorStream
  rw [chunksOf_of_ne_nil (by decide) h, List.zipIdx_cons, List.flatMap_cons]

/-- A piece of at most sixty-four bytes keeps its length. -/
theorem length_zipWith_block (data : Bytes) (counter : Nat) :
    (List.zipWith (· ^^^ ·) (data.take 64) (block key counter nonce)).length = min 64 data.length := by
  rw [List.length_zipWith, List.length_take, length_block]
  omega

/-- So a text keeps its length under the key stream. -/
@[simp] theorem length_xorStream (data : Bytes) (counter : Nat) :
    (xorStream key nonce counter data).length = data.length := by
  induction hlen : data.length using Nat.strongRecOn generalizing data counter with
  | ind n ih =>
    by_cases h : data = []
    · subst h
      exact hlen
    · have hpos : 0 < data.length := List.length_pos_iff.2 h
      rw [xorStream_of_ne_nil key nonce h, List.length_append, length_zipWith_block,
        ih (data.drop 64).length (by rw [List.length_drop]; omega) (data.drop 64) _ rfl,
        List.length_drop]
      omega

/-- The key stream applied twice does nothing. -/
theorem xorStream_xorStream (data : Bytes) (counter : Nat) :
    xorStream key nonce counter (xorStream key nonce counter data) = data := by
  induction hlen : data.length using Nat.strongRecOn generalizing data counter with
  | ind n ih =>
    by_cases h : data = []
    · subst h
      rfl
    have hpos : 0 < data.length := List.length_pos_iff.2 h
    have hfirst := length_zipWith_block key nonce data counter
    have hne : xorStream key nonce counter data ≠ [] := by
      apply List.ne_nil_of_length_pos
      rw [length_xorStream]
      exact hpos
    have hrest := ih (data.drop 64).length (by rw [List.length_drop]; omega) (data.drop 64)
      (counter + 1) rfl
    -- what is cut off the result is what came of the first piece, be it full or the last one
    have hcut : ∀ rest : Bytes, (64 ≤ data.length ∨ rest = []) →
        (List.zipWith (· ^^^ ·) (data.take 64) (block key counter nonce) ++ rest).take 64 =
          List.zipWith (· ^^^ ·) (data.take 64) (block key counter nonce) ∧
        (List.zipWith (· ^^^ ·) (data.take 64) (block key counter nonce) ++ rest).drop 64 = rest := by
      rintro rest (hfull | rfl)
      · have h64 := hfirst.trans (Nat.min_eq_left hfull)
        exact ⟨List.take_left' h64, List.drop_left' h64⟩
      · rw [List.append_nil]
        exact ⟨List.take_of_length_le (by omega), List.drop_of_length_le (by omega)⟩
    have hend : 64 ≤ data.length ∨ xorStream key nonce (counter + 1) (data.drop 64) = [] := by
      by_cases hfull : 64 ≤ data.length
      · exact .inl hfull
      · rw [List.drop_of_length_le (by omega)]
        exact .inr rfl
    rw [xorStream_of_ne_nil key nonce hne, xorStream_of_ne_nil key nonce h, (hcut _ hend).1,
      (hcut _ hend).2, hrest, zipWith_xor_cancel, List.take_append_drop]
    rw [List.length_take, length_block]
    omega

end ChaCha20

/-! ## The laws of the suite -/

/-- Every text can be sealed that is short enough for the block counter of the cipher, and grows by a
tag. -/
def Suite.Seals (S : Suite) : Prop :=
  ∀ key nonce plain, plain.length / 64 < AuthenticatedCipher.blockLimit →
    ∃ sealed, S.encrypt key nonce plain = some sealed ∧
      sealed.length = plain.length + AuthenticatedCipher.tagSize

/-- A key seals every text of less than one block; a block is the least that the limit could be. -/
theorem SessionKey.encrypt_of_seals {S : Suite} (hs : S.Seals) (key : SessionKey) {plain : Bytes}
    (h : plain.length < 64) (t : Tape) :
    ∃ sealed, key.encrypt S plain t = (.ok sealed, (t.draw nonceSize).2) ∧
      sealed.length = nonceSize + (plain.length + AuthenticatedCipher.tagSize) := by
  have hlimit : plain.length / 64 < AuthenticatedCipher.blockLimit := by
    rw [Nat.div_eq_of_lt h]
    decide
  obtain ⟨cipherText, hc, hlength⟩ := hs key.octets (t.draw nonceSize).1 plain hlimit
  refine ⟨(t.draw nonceSize).1.val ++ cipherText, ?_, ?_⟩
  · unfold encrypt sealWith
    simp only [hc]
  · rw [List.length_append, (t.draw nonceSize).1.property, hlength]

/-- The primitives in use seal every text within the limit of the cipher. -/
theorem Suite.standard_seals : Suite.standard.Seals := by
  intro key nonce plain h
  refine ⟨_, if_pos h, ?_⟩
  rw [List.length_append, ChaCha20.length_xorStream]
  exact congrArg (plain.length + ·) (AuthenticatedCipher.tagOf key nonce _).property

/-- The primitives in use open what they have sealed. -/
theorem Suite.standard_opens : Suite.standard.Opens := by
  intro key nonce plain sealed h
  show AuthenticatedCipher.decrypt key nonce sealed = some plain
  change AuthenticatedCipher.encrypt key nonce plain = some sealed at h
  unfold AuthenticatedCipher.encrypt at h
  split at h
  case isFalse => cases h
  next hlimit =>
    cases h
    have htag := (AuthenticatedCipher.tagOf key nonce (ChaCha20.xorStream key nonce 1 plain)).property
    have hsize : (ChaCha20.xorStream key nonce 1 plain ++
        (AuthenticatedCipher.tagOf key nonce (ChaCha20.xorStream key nonce 1 plain)).val).length -
          AuthenticatedCipher.tagSize = plain.length := by
      rw [List.length_append, htag, ChaCha20.length_xorStream]
      exact Nat.add_sub_cancel ..
    unfold AuthenticatedCipher.decrypt
    have hlen := ChaCha20.length_xorStream key nonce plain 1
    simp only [hsize, List.take_left' hlen, List.drop_left' hlen]
    rw [if_pos, ChaCha20.xorStream_xorStream]
    refine ⟨?_, hlimit, trivial⟩
    rw [List.length_append, htag]
    exact Nat.le_add_left ..

namespace Suite

variable (publicKey : Block 32 → Block 32) (shared : Block 32 → Block 32 → Block 32)

/-- The primitives in use, but with another Diffie-Hellman exchange. -/
def standardWith : Suite := { standard with publicKey, shared }

/-- The exchange has no part in this, so the law holds with any other as well. -/
theorem standardWith_opens : (standardWith publicKey shared).Opens :=
  fun key nonce plain sealed h => standard_opens key nonce plain sealed h

/-- Nor has it in what can be sealed. -/
theorem standardWith_seals : (standardWith publicKey shared).Seals :=
  fun key nonce plain h => standard_seals key nonce plain h

end Suite

end DevicePairing
