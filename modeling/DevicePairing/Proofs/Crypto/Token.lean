import DevicePairing.OutOfBand
import DevicePairing.Proofs.Crypto.Cipher

/-!
# Both ends of an out-of-band token

The maker of a token and its reader hold the same key, and what is one side's nonce for encrypting is the other
side's nonce for decrypting. `OutOfBand.Cipher.start_mutual` says what the two need of this, for every tape: each
decodes what the other encodes, whatever the code. It also says when there are two sides at all. The maker has a
cipher only if the channel took the token, and a reader has one exactly if it got fifty-six bytes.

The bytes that were pushed are those whose fate decides the outcome: one and the same token for every channel,
taken or refused.
-/

namespace DevicePairing.OutOfBand.Cipher

variable {S : Suite} {c : Cipher} {bs : Bytes}

/-- What the writer encodes the reader decodes, for every code but those that the suite does not encrypt under the
writer's nonce. -/
def Undoes (S : Suite) (reader writer : Cipher) : Prop :=
  ∀ code, S.encrypt writer.key writer.outward code = none ∨
    ∃ bs, writer.encode S code = .ok bs ∧ reader.decode S bs = .ok code

/-- The reversed cipher reads what the cipher has written, since the directions are the other way round. -/
theorem undoes_reversed (hS : S.Opens) (c : Cipher) : Undoes S c.reversed c := by
  intro code
  rcases hencrypt : S.encrypt c.key c.outward code with _ | bs
  · exact .inl rfl
  · have hencode : c.encode S code = .ok bs := by
      unfold encode
      rw [hencrypt]
    exact .inr ⟨bs, hencode, decode_encode hS hencode⟩

/-- A cipher is read off the one token that its other side would push. -/
theorem ofToken_eq_ok_iff : ofToken bs = .ok c ↔ bs = c.reversed.token := by
  constructor
  · intro h
    unfold ofToken at h
    split at h
    case isFalse => cases h
    next hlength =>
      cases h
      have hkey : (bs.drop 12).drop 12 = bs.drop 24 := List.drop_drop
      have hinward : (bs.drop 12).take 12 ++ bs.drop 24 = bs.drop 12 := by
        rw [← hkey, List.take_append_drop]
      show bs = bs.take 12 ++ (bs.drop 12).take 12 ++ bs.drop 24
      rw [List.append_assoc, hinward, List.take_append_drop]
  · rintro rfl
    exact ofToken_token c.reversed

/-- A token is taken exactly if it has the right length. -/
theorem exists_ofToken_iff : (∃ c, ofToken bs = .ok c) ↔ bs.length = tokenSize := by
  constructor
  · rintro ⟨c, h⟩
    rw [ofToken_eq_ok_iff.1 h, length_token]
  · intro h
    exact ⟨_, dif_pos h⟩

/-- The channel is given the token of the fresh cipher, and its answer decides. -/
theorem start_eq (push : Bytes → Except Error Unit) (t : Tape) :
    (start push t).1 = (push (fresh t).1.token).map fun _ => (fresh t).1 := by
  unfold start
  dsimp only
  rcases push (fresh t).1.token with e | _ <;> rfl

/-- If the cipher opens what it seals: from every tape a token of fifty-six bytes is pushed; if the channel fails
there is no cipher, and otherwise the maker's cipher and the one that is read off the token decode each other's
codes, in both directions. If the suite encrypts all codes below its limit, then all these arrive. No byte string
of another length is read as a token. -/
theorem start_mutual (hS : S.Opens) (t : Tape) :
    ∃ (maker reader : Cipher) (token : Bytes),
      (∀ push, push token = .ok () → (start push t).1 = .ok maker) ∧
      (∀ push e, push token = .error e → (start push t).1 = .error e) ∧
      ofToken token = .ok reader ∧ Undoes S reader maker ∧ Undoes S maker reader ∧
      (S.Seals → ∀ code : Bytes, code.length / 64 < AuthenticatedCipher.blockLimit →
        (∃ bs, maker.encode S code = .ok bs ∧ reader.decode S bs = .ok code) ∧
          ∃ bs, reader.encode S code = .ok bs ∧ maker.decode S bs = .ok code) ∧
      ∀ bs, (∃ c, ofToken bs = .ok c) ↔ bs.length = 56 := by
  have hthere : Undoes S (fresh t).1.reversed (fresh t).1 := undoes_reversed hS _
  have hback : Undoes S (fresh t).1 (fresh t).1.reversed := undoes_reversed hS (fresh t).1.reversed
  refine ⟨(fresh t).1, (fresh t).1.reversed, (fresh t).1.token, fun push taken => ?_,
    fun push e refused => ?_, ofToken_token _, hthere, hback, fun hseals code hlimit => ⟨?_, ?_⟩,
    fun _ => exists_ofToken_iff⟩
  · rw [start_eq, taken]
    rfl
  · rw [start_eq, refused]
    rfl
  · obtain ⟨sealed, hsealed, _⟩ := hseals (fresh t).1.key (fresh t).1.outward code hlimit
    exact (hthere code).resolve_left fun hnone => Option.some_ne_none _ (hsealed.symm.trans hnone)
  · obtain ⟨sealed, hsealed, _⟩ := hseals (fresh t).1.key (fresh t).1.inward code hlimit
    exact (hback code).resolve_left fun hnone => Option.some_ne_none _ (hsealed.symm.trans hnone)

/-- A code of six digits, with the primitives in use and a tape that counts: either side decodes what the other one
encodes, and from the same tape there is no cipher if the channel is closed. -/
theorem start_mutual_digits :
    Suite.standard.Opens ∧ ∃ (maker reader : Cipher) (token : Bytes),
      (start (fun _ => .ok ()) ⟨fun i => i.toUInt8, 0⟩).1 = .ok maker ∧
      (start (fun _ => .error (.channel "socket closed")) ⟨fun i => i.toUInt8, 0⟩).1 =
        .error (.channel "socket closed") ∧
      ofToken token = .ok reader ∧
      (∃ bs, maker.encode .standard (ascii "123456") = .ok bs ∧
        reader.decode .standard bs = .ok (ascii "123456")) ∧
      ∃ bs, reader.encode .standard (ascii "123456") = .ok bs ∧
        maker.decode .standard bs = .ok (ascii "123456") := by
  obtain ⟨maker, reader, token, taken, refused, hread, _, _, arrives, _⟩ :=
    start_mutual Suite.standard_opens ⟨fun i => i.toUInt8, 0⟩
  obtain ⟨hthere, hback⟩ := arrives Suite.standard_seals (ascii "123456") (by decide)
  exact ⟨Suite.standard_opens, maker, reader, token, taken _ rfl, refused _ _ rfl, hread, hthere, hback⟩

end DevicePairing.OutOfBand.Cipher
