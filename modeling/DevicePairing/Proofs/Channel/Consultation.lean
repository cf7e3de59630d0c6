import DevicePairing.Proofs.Channel.Dispatch
import DevicePairing.Proofs.Channel.Upshot
import DevicePairing.Proofs.KeyExchange.Answers

/-!
# What a channel makes of its engine

A channel and its engine each keep a stage of the handshake. The engine changes its own when it is asked,
the channel changes its own when it has dealt with the reply, and much may go wrong in between.
`Channel.Consulted` says what a call comes to for the two: the engine is left alone and so is the stage, or
the engine is asked once, for a step that belongs to the stage the channel is at, and if the handshake goes
on after that the channel is at the stage that was replied. `Channel.consulted_serve` proves it for every
call to every channel, whatever its engine does.

Most handlers ask first, do nothing that has to do with the engine after that, and end at the stage of the reply
(`Work.AsksFirst`); the others do not ask, or ask behind something that leaves the dealings with the engine alone.
-/

namespace DevicePairing

/-- Whether an act asks the engine. -/
def Act.isAsked : Act → Bool
  | .asked .. => true
  | _ => false

variable {ε σ τ : Type} {α : Type} {S : Setting ε σ τ}

namespace Turn

/-- What the engine was asked in a turn so far, and the state it is in. -/
def dealings (t : Turn ε σ τ) : List Act × ε := (t.acts.filter Act.isAsked, t.engine)

/-- The dealings with the engine, and the stage they have led to. -/
def progress (t : Turn ε σ τ) : (List Act × ε) × Stage := (t.dealings, t.stage)

variable (S) in
/-- The dealings of a turn once the engine was asked, with a given tape to draw from. -/
def consult (call : EngineCall) (tape : Tape) (t : Turn ε σ τ) : List Act × ε :=
  (t.acts.filter Act.isAsked ++ [.asked call (S.engine.answer call t.engine tape).1],
    (S.engine.answer call t.engine tape).2.1)

/-- An act that does not ask the engine is none of its dealings. -/
theorem dealings_note {a : Act} (h : a.isAsked = false) (t : Turn ε σ τ) :
    (t.note a).dealings = t.dealings := by
  simp [dealings, note, h]

/-- Dealings with the engine come of asking it, and of nothing else. -/
theorem dependsOn_dealings : DependsOn S [.ask] dealings := by
  rintro x t t' h apart
  cases h <;> first | rfl | exact absurd List.mem_cons_self apart | exact dealings_note rfl _

/-- The engine and the stage change where the engine is asked or the stage goes on. -/
theorem dependsOn_progress : DependsOn S [.ask, .stage] progress := by
  rintro x t t' h apart
  obtain ⟨unasked, stays⟩ := not_or.1 (mt List.mem_cons.2 apart)
  exact Prod.ext (dependsOn_dealings x t t' h fun hx => unasked (List.mem_singleton.1 hx))
    (dependsOn_stage x t t' h stays)

/-- To give up is no step of the handshake. -/
@[simp] theorem progress_fail (t : Turn ε σ τ) (code : ErrorCode) :
    (t.fail code).progress = t.progress := by
  unfold fail
  split <;> rfl

/-- The dealings with the engine do not depend on whether a step gave up. -/
@[simp] theorem progress_settle (r : Except ErrorCode Unit) (t : Turn ε σ τ) :
    (t.settle r).progress = t.progress := by
  cases r with
  | ok _ => rfl
  | error code => exact t.progress_fail code

end Turn

/-! ## Steps that ask the engine -/

namespace Work

variable (S) in
/-- A step that gives up before it has asked the engine, or asks it once for one of the given calls and, if
it succeeds, ends at the stage that was replied. -/
def Consults (p : EngineCall → Prop) (w : Work ε σ τ Unit) : Prop :=
  ∀ t, ((w t).1 ≠ .ok () ∧ (w t).2.dealings = t.dealings) ∨
    ∃ call tape, p call ∧ (w t).2.dealings = t.consult S call tape ∧
      ((w t).1 = .ok () →
        ∃ reply, (S.engine.answer call t.engine tape).1 = .ok reply ∧ (w t).2.stage = reply.stage)

variable {p : EngineCall → Prop} {call : EngineCall} {touches : List Touch}

/-- A step that asks first consults the engine, if it does not ask again. -/
theorem AsksFirst.consults {w : Work ε σ τ Unit} (h : AsksFirst S call touches w)
    (unasked : ∀ x ∈ touches, x ∉ [Touch.ask]) : Consults S (· = call) w := by
  obtain ⟨rest, rfl, hrest⟩ := h
  intro t
  have hasked : (ask S call t).2.dealings = t.consult S call t.tape := by
    simp [ask, Turn.dealings, Turn.consult, Turn.note, Act.isAsked]
  refine .inr ⟨call, t.tape, rfl, ?_⟩
  rw [bind_apply]
  rcases h : ask S call t with ⟨code | reply, t'⟩
  · rw [h] at hasked
    refine ⟨hasked, fun hok => ?_⟩
    cases hok
  · rw [h] at hasked
    have hafter : ∀ x ∈ .stage :: touches, x ∉ [Touch.ask] := List.forall_mem_cons.2 ⟨by decide, unasked⟩
    have hdealings := (hrest reply).1.leaves Turn.dependsOn_dealings hafter t'
    exact ⟨hdealings.trans hasked, fun hok => ⟨reply, answer_of_ask h, (hrest reply).2 t' hok⟩⟩

/-- The question may be described with less detail. -/
theorem Consults.mono {p' : EngineCall → Prop} {w : Work ε σ τ Unit} (h : Consults S p w)
    (hp : ∀ call, p call → p' call) : Consults S p' w := by
  intro t
  rcases h t with h | ⟨call, tape, hcall, h⟩
  · exact .inl h
  · exact .inr ⟨call, tape, hp call hcall, h⟩

/-- What comes before the question may give up, and changes nothing that the question depends on. -/
theorem Footprint.bind_consults {x : Work ε σ τ α} {f : α → Work ε σ τ Unit}
    (hx : Footprint S touches x) (unasked : ∀ y ∈ touches, y ∉ [Touch.ask])
    (hf : ∀ a, Consults S p (f a)) : Consults S p (x >>= f) := by
  intro t
  have hxt := hx.leaves Turn.dependsOn_dealings unasked t
  rw [bind_apply]
  rcases h : x t with ⟨code | a, t'⟩
  · rw [h] at hxt
    exact .inl ⟨nofun, hxt⟩
  · rw [h] at hxt
    obtain ⟨hacts, hengine⟩ : t'.acts.filter Act.isAsked = t.acts.filter Act.isAsked ∧
        t'.engine = t.engine := Prod.mk.inj hxt
    have hconsult : ∀ call tape, t'.consult S call tape = t.consult S call tape := by
      intro call tape
      simp only [Turn.consult, hacts, hengine]
    rcases hf a t' with ⟨hfailed, hdealings⟩ | ⟨call, tape, hcall, hdealings, hreached⟩
    · exact .inl ⟨hfailed, hdealings.trans hxt⟩
    · refine .inr ⟨call, tape, hcall, hdealings.trans (hconsult call tape), ?_⟩
      rw [← hengine]
      exact hreached

end Work

/-- The acceptance of the code consults the engine. -/
theorem Association.consults_accept : Work.Consults S (· = .verify) (accept S) :=
  asksFirst_accept.consults (by decide)

/-- The engine is consulted about the proof of a device that comes back, once the stored key is known. -/
theorem Reconnection.consults_resume (device : Uuid) (payload : Bytes) :
    Work.Consults S (fun call => ∃ previousKey, call = .resume payload previousKey)
      (resume S device payload) := by
  obtain ⟨w, hresume, hasks⟩ := exists_asksFirst_resume (S := S) device payload
  rw [hresume]
  refine (Work.footprint_readKey device).bind_consults (by decide) fun found => ?_
  refine (Work.footprint_require _ found).bind_consults (by decide) fun previousKey => ?_
  exact ((hasks previousKey).consults (by decide)).mono fun call hcall => ⟨previousKey, hcall⟩

/-! ## Calls -/

/-- To send a message has nothing to do with the engine. -/
theorem Turn.progress_send (m : DeviceMessage) (t : Turn ε σ τ) :
    (t.send S m).2.progress = t.progress := by
  unfold send
  split
  · rfl
  · rfl
  split
  · exact t.progress_fail _
  next key _ =>
    rcases key.encrypt S.suite m.payload t.tape with ⟨_ | sealed, tape⟩
    · rfl
    · have hwrite : (({ t with tape } : Turn ε σ τ).write S (m.withPayload true sealed) .client).2.progress =
          t.progress := Prod.ext (dealings_note rfl _) rfl
      dsimp only
      rcases hw : ({ t with tape } : Turn ε σ τ).write S (m.withPayload true sealed) .client with
        ⟨_ | _, t'⟩ <;> rwa [hw] at hwrite

namespace Channel

variable (S) in
/-- What a call comes to for the channel and its engine: the turn in which it is dealt with. -/
inductive Consulted (c : Channel ε σ τ) (t : Turn ε σ τ) : Prop where
  /-- The engine is left alone. -/
  | spared (unasked : ∀ a ∈ t.acts, a.isAsked = false) (engine : t.engine = c.engine)
    (stage : t.phase = .handshaking → t.stage = c.stage)
  /-- The engine is asked once, for something that is due. -/
  | asked {call : EngineCall} {tape : Tape} (before : c.phase = .handshaking)
    (due : call.DueAt c.stage)
    (once : t.acts.filter Act.isAsked = [.asked call (S.engine.answer call c.engine tape).1])
    (engine : t.engine = (S.engine.answer call c.engine tape).2.1)
    (reached : t.phase = .handshaking →
      ∃ reply, (S.engine.answer call c.engine tape).1 = .ok reply ∧ t.stage = reply.stage)

variable {c : Channel ε σ τ} {i : Call} {t : Turn ε σ τ}

/-- Where neither the engine nor the stage changes, the engine is spared. -/
theorem consulted_of_progress (h : t.progress = c.turn.progress) : Consulted S c t := by
  obtain ⟨hdealings, hstage⟩ := Prod.mk.inj h
  obtain ⟨hacts, hengine⟩ := Prod.mk.inj hdealings
  exact .spared (by simpa using hacts) hengine fun _ => hstage

/-- So it is by a step that does not ask and does not go on. -/
theorem consulted_of_footprint {w : Work ε σ τ Unit} {touches : List Touch}
    (h : Work.Footprint S touches w) (apart : ∀ x ∈ touches, x ∉ [Touch.ask, .stage]) :
    Consulted S c (c.turn.attempt w) := by
  refine consulted_of_progress ?_
  rw [Turn.attempt_eq_settle, Turn.progress_settle]
  exact h.leaves Turn.dependsOn_progress apart c.turn

/-- A step that consults the engine about something that is due. -/
theorem consulted_attempt {p : EngineCall → Prop} {w : Work ε σ τ Unit}
    (before : c.phase = .handshaking) (consults : Work.Consults S p w)
    (due : ∀ call, p call → call.DueAt c.stage) : Consulted S c (c.turn.attempt w) := by
  -- a handshake that goes on is one whose step has succeeded
  have hok : (c.turn.attempt w).phase = .handshaking →
      (w c.turn).1 = .ok () ∧ (w c.turn).2 = c.turn.attempt w := by
    intro lasts
    rw [Turn.attempt_eq_settle] at lasts ⊢
    generalize (w c.turn).1 = r, (w c.turn).2 = t at *
    cases r with
    | ok _ => exact ⟨rfl, rfl⟩
    | error code => exact absurd lasts (t.phase_fail_ne_handshaking code)
  have hprogress : (c.turn.attempt w).progress = (w c.turn).2.progress := by
    rw [Turn.attempt_eq_settle, Turn.progress_settle]
  have hkept : (c.turn.attempt w).dealings = (w c.turn).2.dealings := congrArg Prod.fst hprogress
  rcases consults c.turn with ⟨hfailed, hdealings⟩ | ⟨call, tape, hcall, hdealings, hreached⟩
  · obtain ⟨hacts, hengine⟩ := Prod.mk.inj (hkept.trans hdealings)
    exact .spared (by simpa using hacts) hengine fun lasts => absurd (hok lasts).1 hfailed
  · obtain ⟨hacts, hengine⟩ := Prod.mk.inj (hkept.trans hdealings)
    refine .asked before (due call hcall) hacts hengine fun lasts => ?_
    obtain ⟨hsucceeded, hturn⟩ := hok lasts
    rw [← hturn]
    exact hreached hsucceeded

/-- The acceptance of the code is due at the two stages at which a code waits for it. -/
theorem consulted_accept (before : c.phase = .handshaking)
    (stage : c.stage = .verificationNeeded ∨ c.stage = .oobVerificationNeeded) :
    Consulted S c (c.turn.attempt (Association.accept S)) :=
  consulted_attempt before Association.consults_accept (by rintro _ rfl; exact stage)

/-- What a frame sets off consults the engine about nothing but what is due. -/
theorem consulted_setsOff {payload : Bytes} {w : Work ε σ τ Unit} (before : c.phase = .handshaking)
    (step : SetsOff S c payload w) : Consulted S c (c.turn.attempt w) := by
  cases step with
  | init stage _ =>
    exact consulted_attempt before ((Association.asksFirst_init payload).consults (by decide))
      (by rintro _ rfl; exact stage)
  | verify _ _ => exact consulted_of_footprint (Reconnection.footprint_verify _ _ payload) (by decide)
  | proceed stage _ =>
    exact consulted_attempt before ((Association.asksFirst_proceed payload).consults (by decide))
      (by rintro _ rfl; exact stage)
  | proceedReturning stage _ =>
    exact consulted_attempt before ((Reconnection.asksFirst_proceed payload).consults (by decide))
      (by rintro _ rfl; exact stage)
  | peerCode stage _ =>
    rcases Association.peerCode_cases (S := S) payload c.turn with ⟨code, h⟩ | h
    · refine consulted_of_progress ?_
      rw [Turn.attempt_eq_settle, h, Turn.progress_settle]
    · rw [Turn.attempt_eq_settle, h, ← Turn.attempt_eq_settle]
      exact consulted_accept before (.inr stage)
  | final _ _ => exact consulted_of_footprint (Association.footprint_final payload) (by decide)
  | resume stage _ =>
    exact consulted_attempt before (Reconnection.consults_resume _ payload)
      (by rintro _ ⟨previousKey, rfl⟩; exact stage)
  | stray _ => exact consulted_of_footprint (.throw _ : Work.Footprint S [] _) nofun

/-- The engine is left alone by every call, or asked once for something that is due. -/
theorem consulted_serve (i : Call) (c : Channel ε σ τ) : Consulted S c (c.serve S i) := by
  have hdispatched := dispatched_serve (S := S) i c
  have hsend : ∀ m, i = .send m → (c.serve S i).progress = c.turn.progress := by
    rintro m rfl
    exact Turn.progress_send m c.turn
  generalize c.serve S i = t at *
  cases hdispatched with
  | idle | told _ _ _ | closed _ => exact consulted_of_progress rfl
  | @sent m _ _ _ _ _ _ => exact consulted_of_progress (hsend m rfl)
  | unreadable _ | premature _ => exact consulted_of_progress (Turn.progress_fail _ _)
  | frame before _ step => exact consulted_setsOff before step
  | accepted before _ stage => exact consulted_accept before stage

/-- So it is by every move, and the outcome of the move is that of the turn. -/
theorem consulted_move (m : Move σ τ) (c : Channel ε σ τ) :
    ∃ t : Turn ε σ τ, Consulted S c t ∧ t.toChannel = (c.move S m).2 ∧
      t.acts = (c.move S m).1.acts := by
  -- between calls neither the engine nor the stage changes
  have idle : (c.move S m).1 = .idle → (c.move S m).2.engine = c.engine →
      (c.move S m).2.stage = c.stage → ∃ t : Turn ε σ τ, Consulted S c t ∧
        t.toChannel = (c.move S m).2 ∧ t.acts = (c.move S m).1.acts := by
    intro hidle hengine hstage
    exact ⟨(c.move S m).2.turn, .spared (List.forall_mem_nil _) hengine fun _ => hstage, rfl,
      by rw [hidle]; rfl⟩
  cases m with
  | call i =>
    exact ⟨c.serve S i, consulted_serve i c, (c.call_channel S i).symm, (c.call_acts S i).symm⟩
  | _ => exact idle rfl rfl rfl

end Channel

end DevicePairing
