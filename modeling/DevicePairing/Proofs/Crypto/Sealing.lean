import DevicePairing.Proofs.Crypto.Cipher

/-!
# What opens was sealed

A sealed text is the nonce it was sealed under, the cipher text and the tag. `SessionKey.sealed_exactly` says that
with the primitives in use this is no loose convention: every text within the limit of the cipher is sealed that
way and opens to itself, and a byte string opens to a text only if it is that text sealed under the nonce it
begins with. Nothing else opens, so a key accepts no second form of a text under the same nonce. What does not
open is refused in one of two ways, which its length tells apart.

The way back rests on two facts. The key stream applied twice does nothing, so the cipher text is the one that
sealing what came out would give; and the tag is a function of the cipher text, so the tag that passed the check
is the one that sealing would add.
-/

namespace DevicePairing

namespace AuthenticatedCipher

variable {key : Block 32} {nonce : Block 12} {plain sealed : Bytes}

/-- The cipher encrypts every text below its limit, to a text of the same length and a tag. -/
theorem encrypt_of_lt (key : Block 32) (nonce : Block 12) (h : plain.length / 64 < blockLimit) :
    ∃ (cipherText : Bytes) (tag : Block 16), cipherText.length = plain.length ∧
      encrypt key nonce plain = some (cipherText ++ tag.val) :=
  ⟨_, _, ChaCha20.length_xorStream key nonce plain 1, if_pos h⟩

/-- A text of too many blocks is not encrypted. -/
theorem encrypt_of_le (key : Block 32) (nonce : Block 12) (h : blockLimit ≤ plain.length / 64) :
    encrypt key nonce plain = none :=
  if_neg (Nat.not_lt.2 h)

/-- An encrypted text is longer by its tag. -/
theorem length_of_encrypt (h : encrypt key nonce plain = some sealed) :
    sealed.length = plain.length + tagSize := by
  rcases Nat.lt_or_ge (plain.length / 64) blockLimit with hlimit | hlimit
  · obtain ⟨cipherText, tag, hlength, hencrypt⟩ := encrypt_of_lt key nonce hlimit
    cases hencrypt.symm.trans h
    rw [List.length_append, hlength, tag.property]
    rfl
  · cases (encrypt_of_le key nonce hlimit).symm.trans h

/-- What decrypts is what encrypting the outcome gives. -/
theorem encrypt_of_decrypt (h : decrypt key nonce sealed = some plain) :
    encrypt key nonce plain = some sealed := by
  unfold decrypt at h
  dsimp only at h
  split at h
  case isFalse => cases h
  next hpassed =>
    obtain ⟨hsize, hlimit, htag⟩ := hpassed
    cases h
    have hlength : (sealed.take (sealed.length - tagSize)).length = sealed.length - tagSize := by
      rw [List.length_take]
      exact Nat.min_eq_left (Nat.sub_le ..)
    unfold encrypt
    rw [if_pos (by rwa [ChaCha20.length_xorStream, hlength])]
    dsimp only
    rw [ChaCha20.xorStream_xorStream, ← htag, List.take_append_drop]

/-- Under one key and nonce a byte string opens to a text exactly if the text is sealed as that byte string. -/
theorem decrypt_eq_some_iff : decrypt key nonce sealed = some plain ↔
    encrypt key nonce plain = some sealed :=
  ⟨encrypt_of_decrypt, Suite.standard_opens key nonce plain sealed⟩

end AuthenticatedCipher

namespace SessionKey

variable {S : Suite} {key : SessionKey} {plain sealed : Bytes}

/-- A sealed text begins with its nonce. -/
theorem sealWith_of_some {nonce : Block nonceSize} {rest : Bytes}
    (h : S.encrypt key.octets nonce plain = some rest) :
    key.sealWith S nonce plain = .ok (nonce.val ++ rest) := by
  unfold sealWith
  rw [h]

/-- A text that cannot be encrypted is refused. -/
theorem sealWith_of_none {nonce : Block nonceSize} (h : S.encrypt key.octets nonce plain = none) :
    key.sealWith S nonce plain = .error .encryption := by
  unfold sealWith
  rw [h]

/-- What is shorter than a nonce is cut off, and nothing else is. -/
theorem decrypt_eq_truncated_iff :
    key.decrypt S sealed = .error .truncated ↔ sealed.length < nonceSize := by
  unfold decrypt
  by_cases h : nonceSize ≤ sealed.length
  · rw [dif_pos h]
    dsimp only
    split <;> simp [h]
  · rw [dif_neg h]
    simpa using h

/-- A byte string that is long enough begins with some nonce. -/
theorem exists_nonce (h : nonceSize ≤ sealed.length) :
    ∃ (nonce : Block nonceSize) (rest : Bytes), sealed = nonce.val ++ rest :=
  ⟨⟨sealed.take nonceSize, by rw [List.length_take]; exact Nat.min_eq_left h⟩, sealed.drop nonceSize,
    (List.take_append_drop ..).symm⟩

/-- A text that opens is its nonce, followed by what the cipher makes of the outcome under that nonce. -/
theorem sealed_of_decrypt (h : key.decrypt .standard sealed = .ok plain) :
    ∃ (nonce : Block nonceSize) (rest : Bytes), sealed = nonce.val ++ rest ∧
      Suite.standard.encrypt key.octets nonce plain = some rest := by
  have hlength : nonceSize ≤ sealed.length := by
    refine Nat.not_lt.1 fun hshort => ?_
    rw [decrypt_eq_truncated_iff.2 hshort] at h
    cases h
  obtain ⟨nonce, rest, rfl⟩ := exists_nonce hlength
  refine ⟨nonce, rest, rfl, ?_⟩
  rw [decrypt_append] at h
  split at h
  · next hdecrypt =>
    cases h
    exact AuthenticatedCipher.decrypt_eq_some_iff.1 hdecrypt
  · cases h

/-- What does not open is cut off or not authentic. -/
theorem eq_authentication_of_decrypt {e : CryptoError} (h : key.decrypt S sealed = .error e)
    (hlength : nonceSize ≤ sealed.length) : e = .authentication := by
  obtain ⟨nonce, rest, rfl⟩ := exists_nonce hlength
  rw [decrypt_append] at h
  split at h
  · cases h
  · exact (Except.error.inj h).symm

/-- With the primitives in use: a text below the limit of the cipher is sealed to the nonce drawn for it, a cipher
text of its length and a tag, and this opens to it; a longer one is refused. What opens is at least a nonce and a
tag long, and it is its first bytes followed by the outcome encrypted under them. What does not open is cut off if
it is shorter than a nonce, and otherwise not authentic. -/
theorem sealed_exactly (key : SessionKey) :
    (∀ (plain : Bytes) (t : Tape), plain.length / 64 < AuthenticatedCipher.blockLimit →
      ∃ (cipherText : Bytes) (tag : Block 16), cipherText.length = plain.length ∧
        key.encrypt .standard plain t =
          (.ok ((t.draw nonceSize).1.val ++ (cipherText ++ tag.val)), (t.draw nonceSize).2) ∧
        key.decrypt .standard ((t.draw nonceSize).1.val ++ (cipherText ++ tag.val)) = .ok plain) ∧
    (∀ (plain : Bytes) (t : Tape), AuthenticatedCipher.blockLimit ≤ plain.length / 64 →
      key.encrypt .standard plain t = (.error .encryption, (t.draw nonceSize).2)) ∧
    (∀ sealed plain, key.decrypt .standard sealed = .ok plain →
      28 ≤ sealed.length ∧ ∃ (nonce : Block 12) (rest : Bytes), sealed = nonce.val ++ rest ∧
        Suite.standard.encrypt key.octets nonce plain = some rest) ∧
    (∀ sealed : Bytes, sealed.length < 12 → key.decrypt .standard sealed = .error .truncated) ∧
    ∀ (sealed : Bytes) (e : CryptoError), 12 ≤ sealed.length →
      key.decrypt .standard sealed = .error e → e = .authentication := by
  refine ⟨fun plain t hlimit => ?opens, fun plain t hlimit => ?refused, fun sealed plain h => ?sealed,
    fun _ => decrypt_eq_truncated_iff.2, fun _ _ hlength h => eq_authentication_of_decrypt h hlength⟩
  case opens =>
    obtain ⟨cipherText, tag, hlength, hencrypt⟩ :=
      AuthenticatedCipher.encrypt_of_lt key.octets (t.draw nonceSize).1 hlimit
    have hseal := sealWith_of_some (S := .standard) hencrypt
    exact ⟨cipherText, tag, hlength, congrArg (·, (t.draw nonceSize).2) hseal,
      decrypt_of_sealWith Suite.standard_opens hseal⟩
  case refused =>
    have hnone := AuthenticatedCipher.encrypt_of_le key.octets (t.draw nonceSize).1 hlimit
    exact congrArg (·, (t.draw nonceSize).2) (sealWith_of_none (S := .standard) hnone)
  case sealed =>
    obtain ⟨nonce, rest, rfl, hencrypt⟩ := sealed_of_decrypt h
    refine ⟨?_, nonce, rest, rfl, hencrypt⟩
    have hrest := AuthenticatedCipher.length_of_encrypt hencrypt
    rw [List.length_append, nonce.property, hrest, AuthenticatedCipher.tagSize, nonceSize]
    omega

/-! ## Three bytes -/

/-- A tape that counts. -/
def countingTape : Tape := ⟨fun i => i.toUInt8, 0⟩

/-- The three bytes one, two and three, sealed under the first key and the first nonce of that tape. -/
def sealedTriple : Bytes :=
  [32, 33, 34, 35, 36, 37, 38, 39, 40, 41, 42, 43, 114, 229, 139, 182, 72, 189, 26, 213, 63, 251, 143, 185,
   157, 230, 244, 238, 34, 203, 9]

/-- The sealed text opens and is the only form under its nonce; without its last byte it is not authentic, and
with no more than eleven bytes it is cut off. -/
theorem sealed_exactly_triple :
    [1, 2, 3].length / 64 < AuthenticatedCipher.blockLimit ∧
    ((fresh countingTape).1.encrypt .standard [1, 2, 3] (fresh countingTape).2).1 = .ok sealedTriple ∧
    (fresh countingTape).1.decrypt .standard sealedTriple = .ok [1, 2, 3] ∧
    (∃ (nonce : Block 12) (rest : Bytes), sealedTriple = nonce.val ++ rest ∧
      Suite.standard.encrypt (fresh countingTape).1.octets nonce [1, 2, 3] = some rest) ∧
    (fresh countingTape).1.decrypt .standard (sealedTriple.take 30) = .error .authentication ∧
    (fresh countingTape).1.decrypt .standard (sealedTriple.take 11) = .error .truncated := by
  obtain ⟨opens, _, wasSealed, short, other⟩ := sealed_exactly (fresh countingTape).1
  have hlimit : [1, 2, 3].length / 64 < AuthenticatedCipher.blockLimit := by decide
  have hencrypt : ((fresh countingTape).1.encrypt .standard [1, 2, 3] (fresh countingTape).2).1.toOption =
      some sealedTriple := by decide +kernel
  obtain ⟨cipherText, tag, _, hsealed, hopen⟩ := opens [1, 2, 3] (fresh countingTape).2 hlimit
  rw [hsealed] at hencrypt ⊢
  have hsame := Option.some.inj hencrypt
  rw [hsame] at hopen
  have hcut : ((fresh countingTape).1.decrypt .standard (sealedTriple.take 30)).toOption = none := by
    decide +kernel
  refine ⟨hlimit, congrArg Except.ok hsame, hopen, (wasSealed _ _ hopen).2, ?_, short _ (by decide)⟩
  rcases hrefused : (fresh countingTape).1.decrypt .standard (sealedTriple.take 30) with e | plain
  · rw [other _ e (by decide) hrefused]
  · rw [hrefused] at hcut
    cases hcut

end SessionKey

end DevicePairing
