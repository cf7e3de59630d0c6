import DevicePairing.KeyExchange.Responder

/-!
# What the answering side answers

`Responder.Answered` lists all that may come of a call, with what the responder had checked by then and the
state it goes on with. Four of its cases are the calls that succeed, one for each. A call that fails leaves
no trace, except that a disclosed public key that cannot be used has cost the responder its secret
(`Answered.spent`). `answered_answer` says that the list is complete, and nothing after it opens a handler.
-/

namespace DevicePairing

/-- Whether a call belongs to a stage. -/
def EngineCall.DueAt : EngineCall → Stage → Prop
  | .init _, s => s = .unknown
  | .proceed _, s => s = .inProgress
  | .verify, s => s = .verificationNeeded ∨ s = .oobVerificationNeeded
  | .resume _ _, s => s = .resumingSession

/-- Whether an error says that a call was out of turn. -/
def ExchangeError.OutOfTurn (e : ExchangeError) : Prop := ∃ stage, e = .invalidState stage

/-! ## Deriving an agreement -/

namespace Agreement

variable {S : Suite} {secret : Block 32} {peer transcript : Bytes}

/-- Only a public key of the right length leads to an agreement. -/
theorem length_of_derive {a : Agreement} (derived : derive S secret peer transcript = .ok a) :
    peer.length = 32 := by
  unfold derive at derived
  split at derived
  · cases derived
  · next hpeer =>
    refine Decidable.byContradiction fun h => ?_
    rw [Block.ofBytes?_eq_none_iff.2 h] at hpeer
    cases hpeer

/-- That nothing can be derived is the peer's fault, not a call out of turn. -/
theorem not_outOfTurn_of_derive {e : ExchangeError}
    (failed : derive S secret peer transcript = .error e) : ¬ e.OutOfTurn := by
  rintro ⟨stage, rfl⟩
  unfold derive at failed
  split at failed
  · cases failed
  · dsimp only at failed
    split at failed <;> cases failed

end Agreement

namespace Responder

variable {S : Suite} {r r' : Responder} {call : EngineCall} {reply : Reply} {e : ExchangeError}
  {a : Agreement}

/-- Whether a responder holds what the calls of its stage take. -/
structure Equipped (r : Responder) : Prop where
  /-- The secret for the continuation. -/
  secret : r.stage = .inProgress → r.secret ≠ none
  /-- The agreement for the conclusion. -/
  agreement : r.stage.rank = 2 → r.agreement ≠ none

/-- What may come of a call. -/
inductive Answered (S : Suite) (r : Responder) :
    EngineCall → Except ExchangeError Reply → Responder → Prop
  /-- The call is refused. It was out of turn only if it was not due or the responder had lost what the
  call takes. -/
  | refused {call : EngineCall} {e : ExchangeError}
      (inTurn : call.DueAt r.stage → r.Equipped → ¬ e.OutOfTurn) : Answered S r call (.error e) r
  /-- The public key is the one committed to, but it leads to no agreement. -/
  | spent {frame : Bytes} {f : Disclosure} {secret : Block 32} {e : ExchangeError}
      (due : r.stage = .inProgress) (disclosed : Disclosure.decode? frame = some f)
      (committed : (S.digest f.publicKey).val = r.commitment) (held : r.secret = some secret)
      (failed : Agreement.derive S secret f.publicKey (r.transcript ++ frame) = .error e) :
      Answered S r (.proceed frame) (.error e)
        { r with secret := none, transcript := r.transcript ++ frame }
  /-- The first frame is answered. -/
  | opened {frame : Bytes} {f : Commitment} (secret random : Block 32)
      (due : r.stage = .unknown) (decoded : Commitment.decode? frame = some f)
      (length : f.commitment.length = 32) :
      Answered S r (.init frame)
        (.ok {
          stage := .inProgress
          next := some (KeyShare.mk (S.publicKey secret).val random.val).encode })
        { r with
          stage := .inProgress
          secret := some secret
          commitment := f.commitment
          transcript :=
            r.transcript ++ frame ++ (KeyShare.mk (S.publicKey secret).val random.val).encode }
  /-- The public key is the one committed to, and leads to an agreement. -/
  | agreed {frame : Bytes} {f : Disclosure} {secret : Block 32} {a : Agreement}
      (due : r.stage = .inProgress) (disclosed : Disclosure.decode? frame = some f)
      (committed : (S.digest f.publicKey).val = r.commitment) (held : r.secret = some secret)
      (derived : Agreement.derive S secret f.publicKey (r.transcript ++ frame) = .ok a) :
      Answered S r (.proceed frame) (.ok (r.confirmation a))
        { r with
          stage := (r.confirmation a).stage
          secret := none
          transcript := r.transcript ++ frame
          agreement := some a }
  /-- The codes have been compared. -/
  | verified {a : Agreement} (due : r.stage = .verificationNeeded ∨ r.stage = .oobVerificationNeeded)
      (held : r.agreement = some a) :
      Answered S r .verify (.ok { stage := .finished, key := some (a.sessionKey S) })
        { r with stage := .finished }
  /-- The previous key has been proved. -/
  | resumed {frame previousKey : Bytes} {a : Agreement} (due : r.stage = .resumingSession)
      (held : r.agreement = some a) (proof : frame = a.clientProof S previousKey) :
      Answered S r (.resume frame previousKey)
        (.ok {
          stage := .finished
          key := some (a.resumedKey S previousKey)
          next := some (a.serverProof S previousKey) })
        { r with stage := .finished }

/-! ## The list is complete -/

/-- A call that is not due is refused. -/
theorem Answered.undue (due : ¬ call.DueAt r.stage) : Answered S r call (.error e) r :=
  .refused fun h => absurd h due

/-- A call that fails for another reason than its turn. -/
theorem Answered.rejected (other : ¬ e.OutOfTurn) : Answered S r call (.error e) r :=
  .refused fun _ _ => other

/-- Nothing else can come of a first frame. -/
theorem answered_init (frame : Bytes) (r : Responder) (t : Tape) :
    Answered S r (.init frame) (r.init S frame t).1 (r.init S frame t).2.1 := by
  unfold init
  split
  · next hstage => exact .undue hstage
  · next hstage =>
    split
    · exact .rejected nofun
    · next f hframe =>
      split
      · exact .rejected nofun
      · next hlength =>
        refine .opened (t.draw 32).1 ((t.draw 32).2.draw 32).1 (Decidable.of_not_not hstage) hframe ?_
        exact Decidable.of_not_not fun h => hlength (.inl h)

/-- Nothing else can come of a continuation. -/
theorem answered_proceed (frame : Bytes) (r : Responder) :
    Answered S r (.proceed frame) (r.proceed S frame).1 (r.proceed S frame).2 := by
  unfold proceed
  split
  · next hstage => exact .undue hstage
  · next hstage =>
    have due : r.stage = .inProgress := Decidable.of_not_not hstage
    split
    · exact .rejected nofun
    · next f hframe =>
      split
      · exact .rejected nofun
      · next hcommitment =>
        have committed := Decidable.of_not_not hcommitment
        split
        · next hsecret => exact .refused fun _ equipped => absurd hsecret (equipped.secret due)
        · next secret hsecret =>
          dsimp only
          split
          · next hderive => exact .spent due hframe committed hsecret hderive
          · next a hderive => exact .agreed due hframe committed hsecret hderive

/-- Nothing else can come of the acceptance of a code. -/
theorem answered_verify (r : Responder) :
    Answered S r .verify (r.verify S).1 (r.verify S).2 := by
  unfold verify
  split
  · next hstage => exact .undue fun due => due.elim hstage.1 hstage.2
  · next hstage =>
    have due : r.stage = .verificationNeeded ∨ r.stage = .oobVerificationNeeded :=
      Decidable.of_not_not fun h => hstage (not_or.1 h)
    split
    · next hagreement =>
      refine .refused fun _ equipped => absurd hagreement (equipped.agreement ?_)
      rcases due with h | h <;> rw [h] <;> rfl
    · next a hagreement => exact .verified due hagreement

/-- Nothing else can come of the proof of a previous key. -/
theorem answered_resume (frame previousKey : Bytes) (r : Responder) :
    Answered S r (.resume frame previousKey) (r.resume S frame previousKey).1
      (r.resume S frame previousKey).2 := by
  unfold resume
  split
  · next hstage => exact .undue hstage
  · next hstage =>
    have due : r.stage = .resumingSession := Decidable.of_not_not hstage
    split
    · next hagreement =>
      exact .refused fun _ equipped => absurd hagreement (equipped.agreement (by rw [due]; rfl))
    · next a hagreement =>
      split
      · exact .rejected nofun
      · next hproof => exact .resumed due hagreement (Decidable.of_not_not hproof)

/-- Every call ends in one of the ways listed. -/
theorem answered_answer (call : EngineCall) (r : Responder) (t : Tape) :
    Answered S r call ((engine S).answer call r t).1 ((engine S).answer call r t).2.1 := by
  cases call with
  | init frame => exact answered_init frame r t
  | proceed frame => exact answered_proceed frame r
  | verify => exact answered_verify r
  | resume frame previousKey => exact answered_resume frame previousKey r

/-! ## How the exchange will be confirmed -/

/-- Codes are reported without the key. -/
@[simp] theorem confirmation_key (r : Responder) (a : Agreement) : (r.confirmation a).key = none := by
  unfold confirmation
  split
  · rfl
  · split <;> rfl

/-- A key is agreed with a peer that proves the previous one exactly when an exchange is resumed. -/
theorem confirmation_stage_eq_resuming_iff (r : Responder) (a : Agreement) :
    (r.confirmation a).stage = .resumingSession ↔ r.reconnecting = true := by
  unfold confirmation
  split
  · next h => simp [h]
  · next h => split <;> simp [h]

/-- Codes are compared exactly when none is. -/
theorem confirmation_stage_eq_verification_iff (r : Responder) (a : Agreement) :
    ((r.confirmation a).stage = .verificationNeeded ∨
      (r.confirmation a).stage = .oobVerificationNeeded) ↔ r.reconnecting = false := by
  unfold confirmation
  split
  · next h => simp [h]
  · next h => split <;> simp [h]

/-- Whatever the codes wait for, the key comes next. -/
@[simp] theorem rank_confirmation (r : Responder) (a : Agreement) :
    (r.confirmation a).stage.rank = 2 := by
  unfold confirmation
  split
  · rfl
  · split <;> rfl

/-! ## What a step does to the stage -/

/-- A call that succeeds takes the exchange to a later stage, which is the one it reports. -/
theorem Answered.advances (answered : Answered S r call (.ok reply) r') :
    r.stage.rank < reply.stage.rank ∧ r'.stage = reply.stage := by
  cases answered with
  | opened secret random due decoded length => exact ⟨by simp [due, Stage.rank], rfl⟩
  | agreed due disclosed committed held derived =>
    exact ⟨by rw [due, rank_confirmation]; exact Nat.one_lt_two, rfl⟩
  | verified due held =>
    refine ⟨?_, rfl⟩
    rcases due with h | h <;> simp [h, Stage.rank]
  | resumed due held proof => exact ⟨by simp [due, Stage.rank], rfl⟩

/-- A call that succeeds was due. -/
theorem Answered.due (answered : Answered S r call (.ok reply) r') : call.DueAt r.stage := by
  cases answered with
  | opened secret random due decoded length => exact due
  | agreed due disclosed committed held derived => exact due
  | verified due held => exact due
  | resumed due held proof => exact due

/-- A public key that is accepted has the right length and is the one committed to. -/
theorem Answered.disclosed {frame : Bytes} (answered : Answered S r (.proceed frame) (.ok reply) r') :
    ∃ f, Disclosure.decode? frame = some f ∧ f.publicKey.length = 32 ∧
      (S.digest f.publicKey).val = r.commitment := by
  cases answered with
  | agreed due disclosed committed held derived =>
    exact ⟨_, disclosed, Agreement.length_of_derive derived, committed⟩

/-- A proof that is accepted is the first side's proof of the previous key under the agreement. -/
theorem Answered.proved {frame previousKey : Bytes}
    (answered : Answered S r (.resume frame previousKey) (.ok reply) r') :
    ∃ a, r.agreement = some a ∧ frame = a.clientProof S previousKey := by
  cases answered with
  | resumed due held proof => exact ⟨_, held, proof⟩

/-- A call that fails costs at most the secret. -/
theorem Answered.stays (answered : Answered S r call (.error e) r') :
    r' = { r with secret := r'.secret, transcript := r'.transcript } := by
  cases answered with
  | refused inTurn => rfl
  | spent due disclosed committed held failed => rfl

/-- A call that is due is out of turn only for a responder that has lost what the call takes. -/
theorem Answered.inTurn (answered : Answered S r call (.error e) r') (due : call.DueAt r.stage)
    (equipped : r.Equipped) : ¬ e.OutOfTurn := by
  cases answered with
  | refused inTurn => exact inTurn due equipped
  | spent _ disclosed committed held failed => exact Agreement.not_outOfTurn_of_derive failed

/-- After a call that succeeds, the responder holds what the next ones take. -/
theorem Answered.equipped (answered : Answered S r call (.ok reply) r') : r'.Equipped := by
  cases answered with
  | opened secret random due decoded length => exact ⟨fun _ => nofun, nofun⟩
  | @agreed frame f secret a due disclosed committed held derived =>
    refine ⟨fun stage => ?_, fun _ => nofun⟩
    have hrank := rank_confirmation r a
    rw [show (r.confirmation a).stage = .inProgress from stage] at hrank
    cases hrank
  | verified due held => exact ⟨nofun, nofun⟩
  | resumed due held proof => exact ⟨nofun, nofun⟩

end Responder

end DevicePairing
