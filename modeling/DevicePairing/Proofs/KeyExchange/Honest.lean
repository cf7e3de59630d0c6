import DevicePairing.KeyExchange.Initiator
import DevicePairing.KeyExchange.Responder
import DevicePairing.Proofs.Cbor.RoundTrip
import DevicePairing.Proofs.Cbor.Size

/-!
# An honest exchange

The three frames of an exchange read back as they were written, so when both sides are honest and every
frame arrives, each step is accepted and the two sides come to the same agreement
(`honest_exchange`). From the agreement the first side reads the same code and the same keys as the
second, and each accepts the other's proof.
-/

namespace DevicePairing

/-! ## Frames read back -/

/-- The first frame is read as it was written. -/
theorem Commitment.decode?_encode {f : Commitment} (hc : f.commitment.length < capacity 8)
    (hr : f.random.length < capacity 8) : decode? f.encode = some f := by
  have names : Cbor.Reader.Legible (columns.map Prod.fst) :=
    ⟨by decide +kernel, by decide +kernel, by decide +kernel⟩
  have fits : Cbor.Row.Fits columns f.toRow := ⟨hc, hr, trivial⟩
  unfold decode? encode
  rw [Cbor.Row.decode?_write names (by decide) fits]
  rfl

/-- The answer to it is read as it was written. -/
theorem KeyShare.decode?_encode {f : KeyShare} (hk : f.publicKey.length < capacity 8)
    (hr : f.random.length < capacity 8) : decode? f.encode = some f := by
  have names : Cbor.Reader.Legible (columns.map Prod.fst) :=
    ⟨by decide +kernel, by decide +kernel, by decide +kernel⟩
  have fits : Cbor.Row.Fits columns f.toRow := ⟨hk, hr, trivial⟩
  unfold decode? encode
  rw [Cbor.Row.decode?_write names (by decide) fits]
  rfl

/-- The second frame is read as it was written. -/
theorem Disclosure.decode?_encode {f : Disclosure} (hk : f.publicKey.length < capacity 8) :
    decode? f.encode = some f := by
  have names : Cbor.Reader.Legible (columns.map Prod.fst) :=
    ⟨by decide +kernel, by decide +kernel, by decide +kernel⟩
  have fits : Cbor.Row.Fits columns f.toRow := ⟨hk, trivial⟩
  unfold decode? encode
  rw [Cbor.Row.decode?_write names (by decide) fits]
  rfl

/-- A block is short enough for every frame. -/
theorem Block.length_lt (b : Block 32) : b.val.length < capacity 8 := by
  rw [b.property]
  decide

variable {S : Suite}

/-! ## Steps that are accepted -/

namespace Initiator

/-- A side that has not begun writes the digest of its public key and a random number. -/
theorem commit_of_new {i : Initiator} {t : Tape} (new : i.transcript = []) :
    i.commit S t =
      (.ok (Commitment.mk (S.digest i.publicKey.val).val (t.draw 32).1.val).encode,
        { i with
          transcript := (Commitment.mk (S.digest i.publicKey.val).val (t.draw 32).1.val).encode },
        (t.draw 32).2) := by
  unfold commit
  rw [if_neg (not_not_intro new), new]
  rfl

/-- With a key share from which an agreement comes, the first side discloses its public key. -/
theorem reveal_of_share {i : Initiator} {secret : Block 32} {frame : Bytes} {f : KeyShare}
    {a : Agreement} (hsecret : i.secret = some secret) (hframe : KeyShare.decode? frame = some f)
    (agreed : Agreement.derive S secret f.publicKey
      (i.transcript ++ frame ++ (Disclosure.mk i.publicKey.val).encode) = .ok a) :
    i.reveal S frame =
      (.ok (Disclosure.mk i.publicKey.val).encode,
        { i with
          secret := none
          transcript := i.transcript ++ frame ++ (Disclosure.mk i.publicKey.val).encode
          agreement := some a }) := by
  unfold reveal
  simp only [hsecret, hframe, agreed]

/-- What this side reads off its agreement. -/
theorem read_of_agreement {α : Type} {i : Initiator} {a : Agreement} (agreed : i.agreement = some a)
    (f : Agreement → Except ExchangeError α) : i.read f = f a := by
  unfold read
  rw [agreed]

/-- The proof of the previous key that the second side writes is accepted by the first, and both have the same
new key. -/
theorem confirm_of_agreement {i : Initiator} {a : Agreement} (agreed : i.agreement = some a)
    (previousKey : Bytes) :
    i.confirm S (a.serverProof S previousKey) previousKey = .ok (a.resumedKey S previousKey) := by
  unfold confirm
  rw [read_of_agreement agreed, if_neg (not_not_intro rfl)]

end Initiator

namespace Responder

/-- A first frame of the right form is answered with a key share. -/
theorem init_of_commitment {r : Responder} {t : Tape} {frame : Bytes} {f : Commitment}
    (new : r.stage = .unknown) (hframe : Commitment.decode? frame = some f)
    (hcommitment : f.commitment.length = 32) (hrandom : f.random.length = 32) :
    r.init S frame t =
      (.ok {
          stage := .inProgress
          next := some (KeyShare.mk (S.publicKey (t.draw 32).1).val
            ((t.draw 32).2.draw 32).1.val).encode },
        { r with
          stage := .inProgress
          secret := some (t.draw 32).1
          commitment := f.commitment
          transcript := r.transcript ++ frame ++ (KeyShare.mk (S.publicKey (t.draw 32).1).val
            ((t.draw 32).2.draw 32).1.val).encode },
        ((t.draw 32).2.draw 32).2) := by
  unfold init
  rw [if_neg (not_not_intro new)]
  simp only [hframe]
  rw [if_neg]
  rintro (h | h)
  · exact h hcommitment
  · exact h hrandom

/-- A disclosed public key with the digest that was sent before leads to the agreement. -/
theorem proceed_of_disclosure {r : Responder} {secret : Block 32} {frame : Bytes} {f : Disclosure}
    {a : Agreement} (stage : r.stage = .inProgress) (hframe : Disclosure.decode? frame = some f)
    (committed : (S.digest f.publicKey).val = r.commitment) (hsecret : r.secret = some secret)
    (agreed : Agreement.derive S secret f.publicKey (r.transcript ++ frame) = .ok a) :
    r.proceed S frame =
      (.ok (r.confirmation a),
        { r with
          stage := (r.confirmation a).stage
          secret := none
          transcript := r.transcript ++ frame
          agreement := some a }) := by
  unfold proceed
  rw [if_neg (not_not_intro stage)]
  simp only [hframe, hsecret, agreed]
  rw [if_neg (not_not_intro committed)]
  rfl

/-- Once the codes are accepted, the agreement gives the key. -/
theorem verify_of_agreement {r : Responder} {a : Agreement}
    (stage : r.stage = .verificationNeeded ∨ r.stage = .oobVerificationNeeded)
    (agreed : r.agreement = some a) :
    r.verify S = (.ok { stage := .finished, key := some (a.sessionKey S) },
      { r with stage := .finished }) := by
  unfold verify
  rw [if_neg fun h => stage.elim h.1 h.2]
  simp only [agreed]

/-- A proof of the previous key is answered by a proof of it, and the agreement gives the next key. -/
theorem resume_of_agreement {r : Responder} {a : Agreement} (stage : r.stage = .resumingSession)
    (agreed : r.agreement = some a) (previousKey : Bytes) :
    r.resume S (a.clientProof S previousKey) previousKey =
      (.ok { stage := .finished, key := some (a.resumedKey S previousKey),
             next := some (a.serverProof S previousKey) }, { r with stage := .finished }) := by
  unfold resume
  simp [stage, agreed]

end Responder

/-! ## The exchange -/

/-- What the second side reports when it has the first side's public key: it waits for the user, or for
a proof of the previous key. -/
def Responder.awaited (reconnecting : Bool) (a : Agreement) : Reply :=
  if reconnecting then { stage := .resumingSession }
  else { stage := .verificationNeeded, code := some a.code }

/-- A side set up for users to compare codes waits for them, or for the proof of a previous key. -/
theorem Responder.confirmation_visual (reconnecting : Bool) (a : Agreement) :
    { Responder.visual with reconnecting }.confirmation a = awaited reconnecting a := by
  cases reconnecting <;> rfl

/-- Two honest sides that exchange their frames come to the same agreement, whichever way the second side
is going to have it confirmed. -/
theorem honest_exchange (hS : S.Agrees) {r : Responder} (new : r.stage = .unknown)
    (silent : r.transcript = []) (drawing committing answering : Tape) :
    ∃ commitment share disclosure i₁ i₂ r₁ r₂ a committing' answering',
      (Initiator.fresh S drawing).1.commit S committing = (.ok commitment, i₁, committing') ∧
      r.init S commitment answering =
        (.ok { stage := .inProgress, next := some share }, r₁, answering') ∧
      i₁.reveal S share = (.ok disclosure, i₂) ∧
      r₁.proceed S disclosure = (.ok (r.confirmation a), r₂) ∧
      share.length ≤ frameLimit ∧ i₂.agreement = some a ∧ r₂.agreement = some a ∧
      r₂.stage = (r.confirmation a).stage := by
  have hcommitment : ∀ (b c : Block 32),
      Commitment.decode? (Commitment.mk b.val c.val).encode = some ⟨b.val, c.val⟩ :=
    fun b c => Commitment.decode?_encode (Block.length_lt b) (Block.length_lt c)
  have hshare : ∀ (b c : Block 32),
      KeyShare.decode? (KeyShare.mk b.val c.val).encode = some ⟨b.val, c.val⟩ :=
    fun b c => KeyShare.decode?_encode (Block.length_lt b) (Block.length_lt c)
  have hdisclosure : ∀ b : Block 32,
      Disclosure.decode? (Disclosure.mk b.val).encode = some ⟨b.val⟩ :=
    fun b => Disclosure.decode?_encode (Block.length_lt b)
  -- the secrets and the random parts, each from the tape it is drawn from
  obtain ⟨secret, hsecret⟩ : ∃ b, (drawing.draw 32).1 = b := ⟨_, rfl⟩
  obtain ⟨random, hrandom⟩ : ∃ b, (committing.draw 32).1 = b := ⟨_, rfl⟩
  obtain ⟨secret', hsecret'⟩ : ∃ b, (answering.draw 32).1 = b := ⟨_, rfl⟩
  obtain ⟨random', hrandom'⟩ : ∃ b, ((answering.draw 32).2.draw 32).1 = b := ⟨_, rfl⟩
  have hfresh : Initiator.fresh S drawing =
      (⟨some secret, S.publicKey secret, [], none⟩, (drawing.draw 32).2) := by
    rw [← hsecret]
    rfl
  have hcommit := Initiator.commit_of_new (S := S) (t := committing)
    (i := ⟨some secret, S.publicKey secret, [], none⟩) rfl
  have hinit := Responder.init_of_commitment (S := S) (t := answering) new
    (hcommitment (S.digest (S.publicKey secret).val) random)
    (S.digest (S.publicKey secret).val).property random.property
  -- both sides derive from the same transcript, each with its own secret
  obtain ⟨hsame, a, hfirst⟩ := Agreement.derive_comm hS secret secret'
    ((Commitment.mk (S.digest (S.publicKey secret).val).val random.val).encode ++
      (KeyShare.mk (S.publicKey secret').val random'.val).encode ++
      (Disclosure.mk (S.publicKey secret).val).encode)
  have hsecond := hsame.symm.trans hfirst
  rw [hrandom] at hcommit
  rw [hsecret', hrandom', silent, List.nil_append] at hinit
  have hreveal := Initiator.reveal_of_share (S := S)
    (i := ⟨some secret, S.publicKey secret,
      (Commitment.mk (S.digest (S.publicKey secret).val).val random.val).encode, none⟩) rfl
    (hshare (S.publicKey secret') random') hfirst
  have hproceed := Responder.proceed_of_disclosure (S := S)
    (r := { r with
      stage := .inProgress
      secret := some secret'
      commitment := (S.digest (S.publicKey secret).val).val
      transcript :=
        (Commitment.mk (S.digest (S.publicKey secret).val).val random.val).encode ++
        (KeyShare.mk (S.publicKey secret').val random'.val).encode }) rfl
    (hdisclosure (S.publicKey secret)) rfl rfl hsecond
  rw [hfresh]
  exact ⟨_, _, _, _, _, _, _, a, _, _, hcommit, hinit, hreveal, hproceed,
    KeyShare.length_encode_le (S.publicKey secret').property random'.property, rfl, rfl, rfl⟩

end DevicePairing
