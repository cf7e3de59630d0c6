import DevicePairing.Proofs.Channel.Consent

/-!
# The order of calls to the engine

Frames and the user's acceptance may come in at any time and in any order, and the engine may answer what it
likes. Still a channel calls its engine in one order only: first for the first frame, then for the second one,
then for the key, and for the key at most once (`Channel.Scheduled`). An association asks for its key by having
the code verified, a device that comes back by having the session resumed. How often the engine is called for
the first frame or the second one is up to the engine, since the stage that it reports decides what is due. If a
first step always leads to where the second frame is due, and a second step to somewhere else, the calls are the
beginning of one schedule, whatever happens (`Channel.scheduled_run`).

Every call belongs to the stage that the channel is at, and a handshake that goes on has at least the stage that
the calls before have earned it (`Errand.reach`). So the rank of the stage separates the calls that were made from
those that are still to come.
-/

namespace DevicePairing

/-- What an engine may be called for. -/
inductive Errand where
  /-- The first frame. -/
  | init
  /-- The second frame. -/
  | proceed
  /-- The key, the codes having been compared. -/
  | verify
  /-- The key, for a peer that proves it holds the previous one. -/
  | resume
  deriving DecidableEq

namespace Errand

/-- Which errands come before which: the two for a key exclude each other. -/
def rank : Errand → Nat
  | .init => 0
  | .proceed => 1
  | .verify | .resume => 2

/-- The rank that the stage of a channel has at least if the handshake goes on after an errand. -/
def reach : Errand → Nat
  | .init => 0
  | .proceed => 1
  | .verify | .resume => 3

/-- Whether an errand is for a key. -/
def isLast : Errand → Bool
  | .verify | .resume => true
  | _ => false

/-- A handshake that goes on is at least as far as the errand it came from. -/
theorem rank_le_reach (e : Errand) : e.rank ≤ e.reach := by
  cases e <;> decide

/-- There are three places in a schedule. -/
theorem rank_lt_three (e : Errand) : e.rank < 3 := by
  cases e <;> decide

/-- No errand takes a handshake past its end. -/
theorem reach_le_finished (e : Errand) : e.reach ≤ Stage.finished.rank := by
  cases e <;> decide

end Errand

/-- What the engine is called for. -/
def EngineCall.errand : EngineCall → Errand
  | .init _ => .init
  | .proceed _ => .proceed
  | .verify => .verify
  | .resume .. => .resume

/-- A call is due at the stage that has its rank. -/
theorem EngineCall.rank_of_dueAt {call : EngineCall} {s : Stage} (due : call.DueAt s) :
    call.errand.rank = s.rank := by
  cases call with
  | init _ | proceed _ | resume _ _ =>
    obtain rfl := due
    rfl
  | verify => rcases due with rfl | rfl <;> rfl

/-- The errand that the engine is sent on in an act. -/
def Act.errand? : Act → Option Errand
  | .asked call _ => some call.errand
  | _ => none

/-- The errands that the engine is sent on, in order. -/
def Act.errands (acts : List Act) : List Errand := acts.filterMap Act.errand?

/-- Errands come one after another. -/
@[simp] theorem Act.errands_append (acts acts' : List Act) :
    Act.errands (acts ++ acts') = Act.errands acts ++ Act.errands acts' := List.filterMap_append

/-- Only questions to the engine are errands. -/
theorem Act.errands_filter_isAsked (acts : List Act) :
    Act.errands (acts.filter Act.isAsked) = Act.errands acts := by
  unfold Act.errands
  rw [List.filterMap_filter]
  congr 1
  funext a
  cases a <;> rfl

/-- Where the engine is not asked there are no errands. -/
theorem Act.errands_of_unasked {acts : List Act} (unasked : ∀ a ∈ acts, a.isAsked = false) :
    Act.errands acts = [] := by
  rw [← Act.errands_filter_isAsked, List.filter_eq_nil_iff.2 fun a ha => by simp [unasked a ha]]
  rfl

/-- Where it is asked once there is one errand. -/
theorem Act.errands_of_once {acts : List Act} {call : EngineCall} {answer : Except ExchangeError Reply}
    (once : acts.filter Act.isAsked = [.asked call answer]) : Act.errands acts = [call.errand] := by
  rw [← Act.errands_filter_isAsked, once]
  rfl

/-- The one question is among the acts. -/
theorem Act.mem_of_once {acts : List Act} {a : Act} (once : acts.filter Act.isAsked = [a]) : a ∈ acts :=
  (List.mem_filter.1 (once ▸ List.mem_singleton_self a)).1

/-- An errand was sent exactly if the engine was asked for it, whatever it answered. -/
theorem Act.mem_errands_iff {acts : List Act} {e : Errand} :
    e ∈ Act.errands acts ↔ ∃ call answer, .asked call answer ∈ acts ∧ call.errand = e := by
  unfold Act.errands
  rw [List.mem_filterMap]
  constructor
  · rintro ⟨a, ha, he⟩
    cases a with
    | asked call answer => exact ⟨call, answer, ha, Option.some.inj he⟩
    | _ => cases he
  · rintro ⟨call, answer, ha, rfl⟩
    exact ⟨_, ha, rfl⟩

/-- What the engine of a channel is called for to get a key. -/
def Kind.keyErrand (k : Kind) : Errand := if k.returning = none then .verify else .resume

/-- The errands of a handshake that is carried through. -/
def Kind.schedule (k : Kind) : List Errand := [.init, .proceed, k.keyErrand]

/-- The key comes last, whichever way it is asked for. -/
theorem Kind.rank_keyErrand (k : Kind) : k.keyErrand.rank = 2 := by
  unfold Kind.keyErrand
  split <;> rfl

/-- Three errands are in a schedule. -/
theorem Kind.mem_schedule_iff {k : Kind} {e : Errand} :
    e ∈ k.schedule ↔ e = .init ∨ e = .proceed ∨ e = k.keyErrand := by
  simp [Kind.schedule]

/-- An errand of a schedule stands at its rank. -/
theorem Kind.getElem?_schedule {k : Kind} {e : Errand} (h : e ∈ k.schedule) :
    k.schedule[e.rank]? = some e := by
  rcases Kind.mem_schedule_iff.1 h with rfl | rfl | rfl
  · rfl
  · rfl
  · rw [k.rank_keyErrand]
    rfl

/-- Errands of a schedule that leave none out and repeat none are its beginning. -/
theorem Kind.prefix_schedule {k : Kind} {es : List Errand} (listed : ∀ e ∈ es, e ∈ k.schedule)
    (ranks : es.map Errand.rank = List.range es.length) : es <+: k.schedule := by
  rw [List.prefix_iff_getElem?]
  intro n h
  have hrank : es[n].rank = n := by
    simpa [h] using congrArg (fun ranks => ranks[n]?) ranks
  have hstands := Kind.getElem?_schedule (listed es[n] (List.getElem_mem h))
  rwa [hrank] at hstands

/-- Whether an act keeps to single steps: an answer to the first frame leads to where the second one is due, an
answer to the second frame leads somewhere else, and everything else does. -/
def Act.isStep : Act → Bool
  | .asked (.init _) (.ok reply) => reply.stage = .inProgress
  | .asked (.proceed _) (.ok reply) => reply.stage ≠ .inProgress
  | _ => true

/-- A single step that does not bring the key leads to the next rank. -/
theorem rank_of_isStep {call : EngineCall} {s : Stage} {reply : Reply} (due : call.DueAt s)
    (step : (Act.asked call (.ok reply)).isStep = true) (back : s.rank ≤ reply.stage.rank)
    (earned : call.errand.reach ≤ reply.stage.rank) (low : reply.stage.rank ≤ 2) :
    s.rank + 1 = reply.stage.rank := by
  cases call with
  | init _ =>
    have hstage : reply.stage = .inProgress := of_decide_eq_true step
    rw [due, hstage]
    rfl
  | proceed _ =>
    have hstage : reply.stage ≠ .inProgress := of_decide_eq_true step
    rw [due] at back ⊢
    generalize reply.stage = next at *
    cases next with
    | unknown => cases back
    | inProgress => exact absurd rfl hstage
    | verificationNeeded | oobVerificationNeeded | resumingSession => rfl
    | finished => exact absurd low (by decide)
  | verify | resume _ _ => exact absurd (Nat.le_trans earned low) (show ¬ 3 ≤ 2 by decide)

/-- An engine whose first step, when it succeeds, leads to where the second frame is due, and whose second step
leads somewhere else. -/
structure Engine.Stepwise {ε : Type} (E : Engine ε) : Prop where
  /-- The first step. -/
  first : E.Gradual
  /-- The second step. -/
  second : ∀ frame e t reply, (E.answer (.proceed frame) e t).1 = .ok reply → reply.stage ≠ .inProgress

/-- The answers of such an engine keep to single steps. -/
theorem Engine.Stepwise.isStep {ε : Type} {E : Engine ε} (h : E.Stepwise) (call : EngineCall) (e : ε)
    (t : Tape) : (Act.asked call (E.answer call e t).1).isStep = true := by
  rcases hanswer : (E.answer call e t).1 with _ | reply
  · cases call <;> rfl
  · cases call with
    | init frame => exact decide_eq_true (h.first frame e t reply hanswer)
    | proceed frame => exact decide_eq_true (h.second frame e t reply hanswer)
    | verify | resume _ _ => rfl

/-- So does a responder, however it is set up. -/
theorem Responder.stepwise_engine (suite : Suite) : (Responder.engine suite).Stepwise where
  first := gradual_engine suite
  second frame r t reply accepted := by
    have answered := answered_answer (S := suite) (.proceed frame) r t
    rw [accepted] at answered
    generalize ((engine suite).answer (.proceed frame) r t).2.1 = r' at answered
    cases answered with
    | @agreed _ _ a _ _ _ _ _ =>
      unfold confirmation
      split
      · exact Stage.noConfusion
      · split <;> exact Stage.noConfusion

namespace Channel

variable {ε σ τ : Type} {S : Setting ε σ τ} {c c₀ : Channel ε σ τ} {t : Turn ε σ τ} {i : Call}

/-! ## One call -/

/-- The engine is sent on no errand, or on one that is due. -/
theorem Consulted.errands (h : Consulted S c t) :
    Act.errands t.acts = [] ∨
      ∃ e, Act.errands t.acts = [e] ∧ c.phase = .handshaking ∧ e.rank = c.stage.rank := by
  cases h with
  | spared unasked _ _ => exact .inl (Act.errands_of_unasked unasked)
  | asked before due once _ _ =>
    exact .inr ⟨_, Act.errands_of_once once, before, EngineCall.rank_of_dueAt due⟩

/-- The errands of a channel belong to its schedule. -/
theorem mem_schedule_serve (i : Call) (c : Channel ε σ τ) {e : Errand}
    (he : e ∈ Act.errands (c.serve S i).acts) : e ∈ c.kind.schedule := by
  obtain ⟨call, answer, ha, rfl⟩ := Act.mem_errands_iff.1 he
  have hoccasion := ((questions_serve (S := S) i c).occasion ha rfl).1
  unfold Kind.schedule Kind.keyErrand
  generalize c.serve S i = t at hoccasion
  cases hoccasion with
  | init _ _ _ _ | proceed _ _ _ _ | proceedReturning _ _ _ _ => simp [EngineCall.errand]
  | verify accepts =>
    have hnone : c.kind.returning = none := by
      cases accepts with
      | user _ kind _ => exact kind
      | code _ _ _ kind _ => exact congrArg Kind.returning kind
    simp [EngineCall.errand, hnone]
  | resume _ _ _ kind => simp [EngineCall.errand, kind]

/-- A handshake that goes on has the stage that the errand has earned it. -/
theorem reach_le_serve (sound : c.Sound) (lasts : (c.serve S i).phase = .handshaking) {e : Errand}
    (he : e ∈ Act.errands (c.serve S i).acts) : e.reach ≤ (c.serve S i).stage.rank := by
  have hsound : (c.serve S i).toChannel.Sound := sound_served sound (served_serve i sound)
  have hrank : e.rank ≤ (c.serve S i).stage.rank := by
    rcases (consulted_serve (S := S) i c).errands with hnone | ⟨e', hone, _, hdue⟩
    · rw [hnone] at he
      cases he
    · rw [hone] at he
      rw [List.mem_singleton.1 he, hdue]
      exact (upshot_serve (S := S) i sound).rank_le
  obtain ⟨call, answer, ha, rfl⟩ := Act.mem_errands_iff.1 he
  cases lasting_serve sound lasts with
  | prepares _ unasked =>
    obtain ⟨hverify, hresume⟩ := unasked _ ha
    cases call with
    | init _ | proceed _ => exact hrank
    | verify => cases hverify
    | resume _ _ => cases hresume
  | agrees _ agreed =>
    have hfinished : (c.serve S i).stage = .finished :=
      hsound.finished fun hnone => nomatch agreed.keyed.symm.trans hnone
    rw [hfinished]
    exact call.errand.reach_le_finished

/-! ## Runs -/

/-- The order in which a channel has sent its engine on errands. -/
structure Ordered (acts : List Act) (c : Channel ε σ τ) : Prop where
  /-- What an errand earns a handshake is not more than the rank of any later one. -/
  ordered : (Act.errands acts).Pairwise fun e e' => e.reach ≤ e'.rank
  /-- A handshake that goes on has what all errands have earned it. -/
  earned : c.phase = .handshaking → ∀ e ∈ Act.errands acts, e.reach ≤ c.stage.rank
  /-- All errands belong to the schedule. -/
  listed : ∀ e ∈ Act.errands acts, e ∈ c.kind.schedule

/-- The schedule depends on whether a device comes back, and on nothing else. -/
theorem schedule_of_returning {c c' : Channel ε σ τ} (h : c'.kind.returning = c.kind.returning) :
    c'.kind.schedule = c.kind.schedule := by
  unfold Kind.schedule Kind.keyErrand
  rw [h]

/-- A handshake that goes on after a call went on before it. -/
theorem handshaking_of_lasts (sound : c.Sound) (lasts : (c.serve S i).phase = .handshaking) :
    c.phase = .handshaking :=
  Decidable.byContradiction fun ended =>
    (leads_served (served_serve (S := S) i sound)).ne_handshaking ended lasts

/-- A call sends the engine on an errand that is not before those it was sent on. -/
theorem Ordered.serve {acts : List Act} (h : Ordered acts c) (sound : c.Sound) (i : Call) :
    Ordered (acts ++ (c.serve S i).acts) (c.serve S i).toChannel := by
  have hkind : (c.serve S i).toChannel.kind.schedule = c.kind.schedule := by
    refine schedule_of_returning ?_
    rw [← call_channel]
    exact returning_move (S := S) (.call i) sound
  constructor
  case ordered =>
    rw [Act.errands_append, List.pairwise_append]
    rcases (consulted_serve (S := S) i c).errands with hnone | ⟨e, hone, before, due⟩
    · rw [hnone]
      exact ⟨h.ordered, .nil, fun _ _ _ he => nomatch he⟩
    · rw [hone]
      refine ⟨h.ordered, List.pairwise_singleton _ _, fun e' he' => List.forall_mem_singleton.2 ?_⟩
      -- the errand that is due ranks as the stage, which the errands before have earned
      rw [due]
      exact h.earned before e' he'
  case earned =>
    intro lasts
    rw [Act.errands_append]
    refine List.forall_mem_append.2 ⟨fun e he => ?_, fun e he => reach_le_serve sound lasts he⟩
    exact Nat.le_trans (h.earned (handshaking_of_lasts sound lasts) e he)
      (upshot_serve (S := S) i sound).rank_le
  case listed =>
    rw [hkind, Act.errands_append]
    exact List.forall_mem_append.2 ⟨h.listed, fun e he => mem_schedule_serve i c he⟩

/-- So the order holds along every run of a new channel. -/
theorem ordered_run (new : New S c₀) (ms : List (Move σ τ)) :
    Ordered (Outcome.actsOf (c₀.run S ms).1) (c₀.run S ms).2 := by
  refine serving_run (P := Ordered) new.sound ⟨.nil, fun _ => List.forall_mem_nil _, List.forall_mem_nil _⟩
    (fun _ sound _ h => h.serve sound _) fun h rests => ?_
  refine ⟨h.ordered, fun lasts => ?_, ?_⟩
  · rw [rests.stage]
    exact h.earned (rests.phase.symm.trans lasts)
  · rw [rests.kind]
    exact h.listed

/-- Where a channel whose engine keeps to single steps is in its schedule. -/
structure Gapless (acts : List Act) (c : Channel ε σ τ) : Prop where
  /-- No errand was left out, and none was repeated. -/
  ranks : (Act.errands acts).map Errand.rank = List.range (Act.errands acts).length
  /-- Until a key is agreed, there were as many errands as the stage says. -/
  count : c.phase = .handshaking → c.stage.rank ≤ 2 → (Act.errands acts).length = c.stage.rank

/-- With single steps, a call sends the engine on the next errand of the schedule, if on any. -/
theorem Gapless.serve {acts : List Act} (h : Gapless acts c) (sound : c.Sound) (i : Call)
    (steps : ∀ a ∈ (c.serve S i).acts, a.isStep = true) :
    Gapless (acts ++ (c.serve S i).acts) (c.serve S i).toChannel := by
  have hbefore : (c.serve S i).phase = .handshaking → c.phase = .handshaking := handshaking_of_lasts sound
  have hreach : (c.serve S i).phase = .handshaking → ∀ e ∈ Act.errands (c.serve S i).acts,
      e.reach ≤ (c.serve S i).stage.rank := fun lasts e => reach_le_serve sound lasts
  have hrank : c.stage.rank ≤ (c.serve S i).stage.rank := (upshot_serve (S := S) i sound).rank_le
  have hconsulted := consulted_serve (S := S) i c
  generalize c.serve S i = t at *
  cases hconsulted with
  | spared unasked _ stage =>
    have hnone : Act.errands t.acts = [] := Act.errands_of_unasked unasked
    refine ⟨?_, fun lasts low => ?_⟩
    · rw [Act.errands_append, hnone, List.append_nil]
      exact h.ranks
    · rw [stage lasts] at low ⊢
      rw [Act.errands_append, hnone, List.append_nil]
      exact h.count (hbefore lasts) low
  | @asked call tape before due once _ reached =>
    have hone : Act.errands t.acts = [call.errand] := Act.errands_of_once once
    have hdue : call.errand.rank = c.stage.rank := EngineCall.rank_of_dueAt due
    -- an errand that is due is no later than one for a key, so that nothing was agreed before it
    have hcount : (Act.errands acts).length = c.stage.rank :=
      h.count before (Nat.le_of_lt_succ (hdue ▸ call.errand.rank_lt_three))
    rw [hone] at hreach
    refine ⟨?_, fun lasts low => ?_⟩
    · rw [Act.errands_append, hone, List.map_append, h.ranks, List.length_append, List.length_singleton,
        List.range_succ, hcount, ← hdue]
      rfl
    · obtain ⟨reply, hreply, hstage⟩ := reached lasts
      have hstep := steps _ (Act.mem_of_once once)
      rw [hreply] at hstep
      have hearned := hreach lasts call.errand List.mem_cons_self
      rw [Act.errands_append, hone, List.length_append, hcount, List.length_singleton]
      rw [hstage] at hearned hrank low ⊢
      exact rank_of_isStep due hstep hrank hearned low

/-- So a new channel is somewhere in its schedule after every run in which the engine keeps to single steps. -/
theorem gapless_run (new : New S c₀) (ms : List (Move σ τ))
    (steps : ∀ a ∈ Outcome.actsOf (c₀.run S ms).1, a.isStep = true) :
    Gapless (Outcome.actsOf (c₀.run S ms).1) (c₀.run S ms).2 := by
  refine serving_run (P := fun acts c => (∀ a ∈ acts, a.isStep = true) → Gapless acts c) new.sound
    (fun _ => ⟨rfl, fun _ _ => ?_⟩) (fun _ sound _ h steps => ?_) (fun h rests steps => ?_) steps
  · rw [new.stage]
    rfl
  · obtain ⟨hbefore, hnow⟩ := List.forall_mem_append.1 steps
    exact (h hbefore).serve sound _ hnow
  · refine ⟨(h steps).ranks, fun lasts low => ?_⟩
    rw [rests.stage] at low ⊢
    exact (h steps).count (rests.phase.symm.trans lasts) low

/-- A call to a channel with such an engine keeps to single steps. -/
theorem Consulted.isStep (stepwise : S.engine.Stepwise) (h : Consulted S c t) :
    ∀ a ∈ t.acts, a.isStep = true := by
  intro a ha
  cases hasked : a.isAsked with
  | false => cases a <;> first | rfl | cases hasked
  | true =>
    cases h with
    | spared unasked _ _ => cases (unasked a ha).symm.trans hasked
    | @asked call tape _ _ once _ _ =>
      have hmem := List.mem_filter.2 ⟨ha, hasked⟩
      rw [once] at hmem
      rw [List.mem_singleton.1 hmem]
      exact stepwise.isStep call c.engine tape

/-- An engine that keeps to single steps does so in every run. -/
theorem isStep_run (stepwise : S.engine.Stepwise) (ms : List (Move σ τ)) :
    ∀ a ∈ Outcome.actsOf (c.run S ms).1, a.isStep = true := by
  refine run_induction (P := fun os _ => ∀ a ∈ Outcome.actsOf os, a.isStep = true)
    (List.forall_mem_nil _) fun os d m _ before => ?_
  obtain ⟨t, hconsulted, _, hacts⟩ := consulted_move (S := S) m d
  rw [Outcome.actsOf_append, Outcome.actsOf_singleton, ← hacts]
  exact List.forall_mem_append.2 ⟨before, hconsulted.isStep stepwise⟩

/-- How the engine is called in a run. -/
structure Scheduled (k : Kind) (acts : List Act) : Prop where
  /-- First for the first frame, then for the second one, then for the key. -/
  sorted : (Act.errands acts).Pairwise fun e e' => e.rank ≤ e'.rank
  /-- At most once for the key. -/
  once : ((Act.errands acts).filter Errand.isLast).length ≤ 1
  /-- An association does not have a session resumed. -/
  resume : k.returning = none → Errand.resume ∉ Act.errands acts
  /-- A device that comes back does not have a code verified. -/
  verify : k.returning ≠ none → Errand.verify ∉ Act.errands acts
  /-- If the answers keep to single steps, the calls are the beginning of the schedule. -/
  beginning : (∀ a ∈ acts, a.isStep = true) → Act.errands acts <+: k.schedule

/-- The engine is asked for a key once at most, since nothing comes after it. -/
theorem Ordered.once {acts : List Act} (h : Ordered acts c) :
    ((Act.errands acts).filter Errand.isLast).length ≤ 1 := by
  have hordered := h.ordered.filter Errand.isLast
  have hlast : ∀ e ∈ (Act.errands acts).filter Errand.isLast, e.isLast = true :=
    fun e he => (List.mem_filter.1 he).2
  generalize (Act.errands acts).filter Errand.isLast = es at hordered hlast
  rcases es with _ | ⟨e, _ | ⟨e', es⟩⟩
  · exact Nat.zero_le 1
  · exact Nat.le_refl 1
  · -- what comes after an errand for a key would have to rank higher than any errand does
    have hle : e.reach ≤ e'.rank := List.rel_of_pairwise_cons hordered List.mem_cons_self
    have hreach : e.reach = 3 := by
      have := hlast e List.mem_cons_self
      cases e <;> first | rfl | cases this
    exact absurd hle (Nat.not_le.2 (hreach ▸ e'.rank_lt_three))

/-- Whatever a new channel of any kind and its engine are given to do, the engine is called in order, at most once
for a key, and for the kind of key that the channel is for. If the engine keeps to single steps, the calls are the
beginning of the schedule. -/
theorem scheduled_run (new : New S c₀) (ms : List (Move σ τ)) :
    Scheduled c₀.kind (Outcome.actsOf (c₀.run S ms).1) ∧
      (S.engine.Stepwise → Act.errands (Outcome.actsOf (c₀.run S ms).1) <+: c₀.kind.schedule) := by
  have hordered := ordered_run (S := S) new ms
  have hlisted : ∀ e ∈ Act.errands (Outcome.actsOf (c₀.run S ms).1), e ∈ c₀.kind.schedule := by
    rw [← schedule_of_returning (returning_run (S := S) ms new.sound)]
    exact hordered.listed
  have hbeginning : (∀ a ∈ Outcome.actsOf (c₀.run S ms).1, a.isStep = true) →
      Act.errands (Outcome.actsOf (c₀.run S ms).1) <+: c₀.kind.schedule :=
    fun steps => Kind.prefix_schedule hlisted (gapless_run new ms steps).ranks
  refine ⟨?_, fun stepwise => hbeginning (isStep_run stepwise ms)⟩
  constructor
  case sorted => exact hordered.ordered.imp fun h => Nat.le_trans (Errand.rank_le_reach _) h
  case once => exact hordered.once
  case resume =>
    intro association asked
    simpa [Kind.mem_schedule_iff, Kind.keyErrand, association] using hlisted .resume asked
  case verify =>
    intro returning asked
    simpa [Kind.mem_schedule_iff, Kind.keyErrand, returning] using hlisted .verify asked
  case beginning => exact hbeginning

/-- The handshake of an honest peer, whose code the user accepts. -/
theorem scheduled_introduction :
    New Bench.responding (Bench.meeting Responder.visual) ∧
    Bench.responding.engine.Stepwise ∧
    Act.errands (Outcome.actsOf ((Bench.meeting Responder.visual).run Bench.responding
      (introduction ++ [.call .accept])).1) = [.init, .proceed, .verify] ∧
    Scheduled (Bench.meeting Responder.visual).kind (Outcome.actsOf ((Bench.meeting
      Responder.visual).run Bench.responding (introduction ++ [.call .accept])).1) ∧
    Act.errands (Outcome.actsOf ((Bench.meeting Responder.visual).run Bench.responding
      (introduction ++ [.call .accept])).1) <+: (Bench.meeting Responder.visual).kind.schedule := by
  have new : New Bench.responding (Bench.meeting Responder.visual) := .association (.visual ..)
  have stepwise : Bench.responding.engine.Stepwise := Responder.stepwise_engine .standard
  obtain ⟨hscheduled, hbeginning⟩ := scheduled_run new (introduction ++ [.call .accept])
  exact ⟨new, stepwise, by decide +kernel, hscheduled, hbeginning stepwise⟩

end Channel

end DevicePairing
