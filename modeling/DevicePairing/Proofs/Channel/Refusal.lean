import DevicePairing.Proofs.Channel.Confirmation
import DevicePairing.Proofs.Channel.Teardown

/-!
# When the engine refuses

A channel asks its engine in five places, and the engine may refuse in each of them for any reason.
Whatever the place and the reason, the call in which this happens is the last one of the handshake:
`Channel.given_up` says for every channel, of any kind and in any state, that it fails with a code that
depends on the question and on the reason only, that observers are told of the failure and of nothing
else, that nothing was written and nothing kept, and that no secret is left.

This has two sides. Before the engine is asked at most the stored key is looked up
(`Reconnection.exists_asksFirst_resume`), in all other places the question is the first thing of all
(`Work.AsksFirst`). And when the engine refuses, nothing comes after the question
(`Work.AsksFirst.of_refused`), so that giving up finds the turn as the question has left it.
-/

namespace DevicePairing

/-- The refusals of the engine among some acts: what it was asked for, and why it refused. -/
def Act.refusals (acts : List Act) : List (EngineCall × ExchangeError) :=
  acts.filterMap fun
    | .asked call (.error e) => some (call, e)
    | _ => none

/-- The refusals are those questions to the engine that were answered with an error. -/
theorem Act.mem_refusals {acts : List Act} {call : EngineCall} {e : ExchangeError} :
    (call, e) ∈ refusals acts ↔ .asked call (.error e) ∈ acts := by
  unfold refusals
  rw [List.mem_filterMap]
  constructor
  · rintro ⟨a, ha, hrefused⟩
    split at hrefused <;> cases hrefused
    exact ha
  · intro ha
    exact ⟨_, ha, rfl⟩

/-- The code a channel has to fail with when its engine refuses a call for a given reason. -/
inductive EngineCall.Blames : EngineCall → ExchangeError → ErrorCode → Prop where
  /-- The engine was called out of sequence, whatever it was asked for. -/
  | sequence (call : EngineCall) (stage : Stage) : Blames call (.invalidState stage) .invalidState
  /-- The codes were accepted, but the engine agrees on no key. -/
  | verification {e : ExchangeError} (inSequence : ∀ stage, e ≠ .invalidState stage) :
    Blames .verify e .invalidVerification
  /-- The engine does not take a frame. -/
  | handshake {call : EngineCall} {e : ExchangeError} (frame : call ≠ .verify)
    (inSequence : ∀ stage, e ≠ .invalidState stage) : Blames call e .invalidHandshake

/-- The code that a step gives up with is the one that the question and the reason ask for. -/
theorem Work.blames_refusal (call : EngineCall) (e : ExchangeError) :
    call.Blames e (refusal call e) := by
  by_cases hsequence : ∃ stage, e = .invalidState stage
  · obtain ⟨stage, rfl⟩ := hsequence
    exact .sequence call stage
  have hinSequence : ∀ stage, e ≠ .invalidState stage := fun stage h => hsequence ⟨stage, h⟩
  cases e with
  | invalidState stage => exact absurd rfl (hinSequence stage)
  | _ =>
    cases call with
    | verify => exact .verification hinSequence
    | _ => exact .handshake EngineCall.noConfusion hinSequence

variable {ε σ τ : Type} {S : Setting ε σ τ}

/-- A key that is read is the one in the store. -/
theorem Work.key_of_readKey {device : Uuid} {t t' : Turn ε σ τ} {key : Option Bytes}
    (read : readKey S device t = (.ok key, t')) : (S.store.key device t.store).1 = .ok key := by
  unfold readKey at read
  rcases hkey : S.store.key device t.store with ⟨_ | found, store⟩
  all_goals
    rw [hkey] at read
    cases read
  rfl

/-! ## What is left of a step that is refused -/

/-- A turn in which nothing was asked so far knows of no refusal. -/
theorem Turn.not_mem_refusals {t : Turn ε σ τ} (unasked : t.questions = []) {call : EngineCall}
    {e : ExchangeError} : (call, e) ∉ Act.refusals t.acts := by
  intro h
  have hmem : Act.asked call (.error e) ∈ t.questions :=
    List.mem_filter.2 ⟨Act.mem_refusals.1 h, rfl⟩
  rw [unasked] at hmem
  cases hmem

/-- When the engine refuses, nothing comes after the question. -/
theorem Work.AsksFirst.of_refused {call asked : EngineCall} {touches : List Touch} {w : Work ε σ τ Unit}
    (h : AsksFirst S call touches w) (once : ∀ x ∈ touches, x ∉ [Touch.ask, .hash])
    {t : Turn ε σ τ} (unasked : t.questions = []) {e : ExchangeError}
    (refused : (asked, e) ∈ Act.refusals (w t).2.acts) :
    asked = call ∧ (ask S call t).2.acts = t.acts ++ [.asked call (.error e)] ∧
      w t = (.error (refusal call e), (ask S call t).2) := by
  obtain ⟨f, rfl, hf⟩ := h.exists_rest once
  have hquestions : (ask S call t).2.questions =
      [.asked call (S.engine.answer call t.engine t.tape).1] := by
    have hnoted := Turn.questions_note (.asked call (S.engine.answer call t.engine t.tape).1) t
    rw [unasked] at hnoted
    exact hnoted
  have hleft : ((ask S call >>= f) t).2.questions = (ask S call t).2.questions := by
    rw [bind_apply]
    rcases ask S call t with ⟨_ | reply, t'⟩
    · rfl
    · exact hf reply t'
  have hmem : Act.asked asked (.error e) ∈ ((ask S call >>= f) t).2.questions :=
    List.mem_filter.2 ⟨Act.mem_refusals.1 refused, rfl⟩
  rw [hleft, hquestions, List.mem_singleton] at hmem
  injection hmem with hcall hanswer
  refine ⟨hcall, ?_, ?_⟩
  · rw [hanswer]
    rfl
  · have hrefused : (ask S call t).1 = .error (refusal call e) := by
      unfold ask
      simp only [← hanswer]
    rw [bind_apply]
    rcases ha : ask S call t with ⟨code | reply, t'⟩
    · rw [ha] at hrefused
      cases hrefused
      rfl
    · rw [ha] at hrefused
      cases hrefused

/-- When the engine refuses to resume a session, all that was done is to look up the stored key. -/
theorem Reconnection.resume_of_refused {device : Uuid} {payload : Bytes} {t : Turn ε σ τ}
    (unasked : t.questions = []) {asked : EngineCall} {e : ExchangeError}
    (refused : (asked, e) ∈ Act.refusals (resume S device payload t).2.acts) :
    ∃ previous t₁, Work.readKey S device t = (.ok (some previous), t₁) ∧
      asked = .resume payload previous ∧
      (Work.ask S (.resume payload previous) t₁).2.acts = t.acts ++
        [.keyRead device (.ok (some previous)), .asked (.resume payload previous) (.error e)] ∧
      resume S device payload t =
        (.error (Work.refusal asked e), (Work.ask S (.resume payload previous) t₁).2) := by
  obtain ⟨w, hresume, hasks⟩ := exists_asksFirst_resume (S := S) device payload
  have hunasked : (Work.readKey S device t).2.questions = [] :=
    ((Work.footprint_readKey device).leaves Turn.dependsOn_questions (by decide) t).trans unasked
  have hacts : (Work.readKey S device t).2.acts =
      t.acts ++ [.keyRead device (S.store.key device t.store).1] := rfl
  rw [hresume, Work.bind_apply] at refused
  rw [hresume, Work.bind_apply]
  rcases hr : Work.readKey S device t with ⟨code | _ | previous, t₁⟩
  all_goals rw [hr] at hunasked hacts refused
  · exact absurd refused (Turn.not_mem_refusals hunasked)
  · exact absurd refused (Turn.not_mem_refusals hunasked)
  obtain ⟨hasked, hdone, hw⟩ := (hasks previous).of_refused (by decide) hunasked refused
  refine ⟨previous, t₁, rfl, hasked, ?_, ?_⟩
  · dsimp only at hacts
    rw [hdone, hacts, Work.key_of_readKey hr, List.append_assoc]
    rfl
  · rw [hasked]
    exact hw

/-! ## What is left of a call -/

namespace Channel

variable {c : Channel ε σ τ} {i : Call}

variable (S) in
/-- What comes of a call in which the engine refuses: the outcome, and the channel that is left of `c`. -/
structure GivenUp (c : Channel ε σ τ) (i : Call) (call : EngineCall) (e : ExchangeError)
    (code : ErrorCode) (o : Outcome) (c' : Channel ε σ τ) : Prop where
  /-- A frame of the handshake came in, or the user accepted the code. -/
  incoming : (∃ m, i = .arrived m .handshake) ∨ i = .accept
  /-- Until then the handshake was going on. -/
  before : c.phase = .handshaking
  /-- The channel fails with the code. -/
  phase : c'.phase = .failed code
  /-- That is all observers are told. -/
  events : o.events = [.failed code]
  /-- Whoever called is not bothered with it. -/
  answer : o.answer = .ok ()
  /-- Nothing was done but to ask the engine, behind a look-up at most. -/
  acts : o.acts = [.asked call (.error e)] ∨
    ∃ device previous, o.acts = [.keyRead device (.ok (some previous)), .asked call (.error e)]
  /-- Nothing was written. -/
  stream : c'.stream = c.stream
  /-- The store is only asked for what it holds. -/
  reads : S.store.Reads c.store c'.store
  /-- It holds what it held before. -/
  held : ∀ V : S.store.View, V.held c'.store = V.held c.store
  /-- No key and no other secret of the handshake is left. -/
  bare : c'.Bare

/-- To give up a handshake with nothing done but a question is to obey the rules. -/
theorem GivenUp.of_fail (incoming : (∃ m, i = .arrived m .handshake) ∨ i = .accept)
    (before : c.phase = .handshaking) {t : Turn ε σ τ} {call : EngineCall} {e : ExchangeError}
    {code : ErrorCode} (served : c.serve S i = t.fail code) (prepares : Turn.Prepares S c.turn t)
    (events : t.events = []) (stream : t.stream = c.stream)
    (acts : t.acts = [.asked call (.error e)] ∨
      ∃ device previous, t.acts = [.keyRead device (.ok (some previous)), .asked call (.error e)]) :
    GivenUp S c i call e code (c.call S i).1 (c.call S i).2 := by
  have hphase : t.phase = .handshaking := prepares.phase.trans before
  have hserved := served
  rw [Turn.fail_of_handshaking hphase] at hserved
  have hreads : S.store.Reads c.store (c.call S i).2.store := by
    rw [call_channel, hserved]
    exact prepares.reads
  refine ⟨incoming, before, ?_, ?_, ?_, ?_, ?_, hreads, fun V => V.held_of_reads hreads, ?_⟩
  · rw [call_channel, hserved]
  · rw [call_events, hserved, events]
    rfl
  · rcases incoming with ⟨m, rfl⟩ | rfl <;> rfl
  · rwa [call_acts, served, Turn.acts_fail]
  · rw [call_channel, hserved]
    exact stream
  · rw [call_channel, hserved]
    exact t.bare_wipe.congr rfl rfl

/-- A step that begins with a question and is refused is given up at once. -/
theorem GivenUp.of_asksFirst (incoming : (∃ m, i = .arrived m .handshake) ∨ i = .accept)
    (before : c.phase = .handshaking) {w : Work ε σ τ Unit} {call asked : EngineCall}
    {touches : List Touch} (first : Work.AsksFirst S call touches w)
    (once : ∀ x ∈ touches, x ∉ [Touch.ask, .hash]) (served : c.serve S i = c.turn.attempt w)
    {e : ExchangeError} (refused : (asked, e) ∈ Act.refusals (c.serve S i).acts) :
    GivenUp S c i asked e (Work.refusal asked e) (c.call S i).1 (c.call S i).2 := by
  rw [served, Turn.attempt_eq_settle, Turn.acts_settle] at refused
  obtain ⟨rfl, hacts, hw⟩ := first.of_refused once rfl refused
  refine .of_fail incoming before (t := (Work.ask S asked c.turn).2) ?_ (Work.prepares_ask asked _)
    rfl rfl (.inl hacts)
  rw [served, Turn.attempt_eq_settle, hw]
  rfl

/-- Whatever a channel is for and wherever its handshake is, a call in which the engine refuses is the end
of it: the channel fails with the code for the question and the reason, nothing is written, nothing is
kept, and no secret is left. -/
theorem given_up {call : EngineCall} {e : ExchangeError}
    (refused : (call, e) ∈ Act.refusals (c.call S i).1.acts) :
    ∃ code, call.Blames e code ∧ GivenUp S c i call e code (c.call S i).1 (c.call S i).2 := by
  refine ⟨Work.refusal call e, Work.blames_refusal call e, ?_⟩
  rw [call_acts] at refused
  have hoccasion := ((questions_serve (S := S) i c).occasion (Act.mem_refusals.1 refused) rfl).1
  obtain ⟨t, hserved⟩ : ∃ t, c.serve S i = t := ⟨_, rfl⟩
  rw [hserved] at hoccasion
  cases hoccasion with
  | init before _ _ _ =>
    exact .of_asksFirst (.inl ⟨_, rfl⟩) before (Association.asksFirst_init _) (by decide) hserved refused
  | proceed before _ _ _ =>
    exact .of_asksFirst (.inl ⟨_, rfl⟩) before (Association.asksFirst_proceed _) (by decide) hserved refused
  | proceedReturning before _ _ _ =>
    exact .of_asksFirst (.inl ⟨_, rfl⟩) before (Reconnection.asksFirst_proceed _) (by decide) hserved refused
  | verify accepts =>
    cases accepts with
    | user before _ _ =>
      exact .of_asksFirst (.inr rfl) before Association.asksFirst_accept (by decide) hserved refused
    | code before _ _ _ _ =>
      exact .of_asksFirst (.inl ⟨_, rfl⟩) before Association.asksFirst_accept (by decide) hserved refused
  | @resume _ device payload _ _ before _ _ _ =>
    -- the only question with something before it
    rw [hserved, Turn.attempt_eq_settle, Turn.acts_settle] at refused
    obtain ⟨previous, t₁, hread, hasked, hacts, hw⟩ := Reconnection.resume_of_refused rfl refused
    have hprepares := Work.prepares_readKey (S := S) device c.turn
    have hevents : (Work.readKey S device c.turn).2.events = [] := rfl
    have hstream : (Work.readKey S device c.turn).2.stream = c.stream := rfl
    rw [hread] at hprepares hevents hstream
    rw [hasked]
    refine .of_fail (.inl ⟨_, rfl⟩) before
      (t := (Work.ask S (.resume payload previous) t₁).2) ?_
      (hprepares.trans (Work.prepares_ask _ t₁)) hevents hstream (.inr ⟨device, previous, hacts⟩)
    rw [hserved, Turn.attempt_eq_settle, hw, hasked]
    rfl

/-- An association whose engine is content with the frames, but not with the codes. -/
def unagreeable : Channel Bench.Script Bench.Vault Bench.Outlet :=
  { Association.confirmable with
    engine := { Association.confirmable.engine with
      verify := [.error (.authentication "codes differ")] } }

/-- The peer sends the right code, and the engine refuses it all the same. -/
theorem given_up_at_peer_code :
    ∃ c : Channel Bench.Script Bench.Vault Bench.Outlet,
      (unagreeable.run Bench.setting Association.beforeConfirmation).2 = c ∧
      c.phase = .handshaking ∧ c.kind.sentCode = some [4, 2] ∧
      ∃ m, Association.confirmation [4, 2] = .call (.arrived m .handshake) ∧
        GivenUp Bench.setting c (.arrived m .handshake) .verify (.authentication "codes differ")
          .invalidVerification (c.call Bench.setting (.arrived m .handshake)).1
          (c.call Bench.setting (.arrived m .handshake)).2 := by
  refine ⟨_, rfl, by decide +kernel, by decide +kernel, _, rfl, ?_⟩
  have hrefused : (EngineCall.verify, ExchangeError.authentication "codes differ") ∈ Act.refusals
      ((unagreeable.run Bench.setting Association.beforeConfirmation).2.call Bench.setting
        (.arrived ⟨none, false,
          ((Association.sharedCipher.reversed.encode .standard [4, 2]).toOption).getD []⟩
          .handshake)).1.acts := by
    decide +kernel
  obtain ⟨code, hblames, hgivenUp⟩ := given_up hrefused
  cases hblames with
  | verification _ => exact hgivenUp
  | handshake frame _ => exact absurd rfl frame

end Channel

end DevicePairing
