import DevicePairing.Proofs.Channel.Constancy
import Mathlib.Data.List.Basic

/-!
# What the observers of a channel are told

Events come from many places: the steps of the handshake, frames that cannot be opened, messages, stream
errors. `Channel.disciplined_run` states the rules that hold for all events of a run together, for every
run of a new channel of any kind: the end of the handshake is told of once, the device right before, one
code is shown at most, and after a failure or a close there is next to nothing or nothing.

The invariant is a story. What was told so far falls into three parts: what came in during the handshake,
the events that tell how the handshake ended (`Channel.Ended`), and what came in afterwards. Each of the
seven upshots of a call either continues the last part or, while the handshake goes on, supplies the
second one. That one code is shown at most is a second, smaller invariant: a code is shown by a step that
leaves the stage in which codes are shown for good.
-/

namespace DevicePairing

/-- Whether an event tells that the handshake is over. -/
def Event.isEnd : Event → Bool
  | .established | .failed _ => true
  | _ => false

/-- Whether an event names the device at the other end. -/
def Event.isDevice : Event → Bool
  | .deviceId _ => true
  | _ => false

/-- Whether an event shows a code. -/
def Event.isCode : Event → Bool
  | .showCode _ _ => true
  | _ => false

/-- Whether an event may occur before the handshake is over. -/
def Event.isEarly (e : Event) : Bool := e.isTraffic || e.isCode

/-- Traffic may be told of at any time. -/
theorem Event.isEarly_of_isTraffic {e : Event} (h : e.isTraffic = true) : e.isEarly = true := by
  rw [isEarly, h, Bool.true_or]

/-- What may be told early does not say that the handshake is over. -/
theorem Event.isEnd_of_isEarly {e : Event} (h : e.isEarly = true) : e.isEnd = false := by
  cases e <;> first | rfl | cases h

/-- What may be told early names no device. -/
theorem Event.isDevice_of_isEarly {e : Event} (h : e.isEarly = true) : e.isDevice = false := by
  cases e <;> first | rfl | cases h

/-- Traffic shows no code. -/
theorem Event.isCode_of_isTraffic {e : Event} (h : e.isTraffic = true) : e.isCode = false := by
  cases e <;> first | rfl | cases h

/-- All that observers were told, in order. -/
def Outcome.eventsOf (os : List Outcome) : List Event := os.flatMap Outcome.events

/-- With no outcome there are no events. -/
@[simp] theorem Outcome.eventsOf_nil : Outcome.eventsOf [] = [] := rfl

/-- The events of a run come one outcome after another. -/
@[simp] theorem Outcome.eventsOf_append (os os' : List Outcome) :
    Outcome.eventsOf (os ++ os') = Outcome.eventsOf os ++ Outcome.eventsOf os' :=
  List.flatMap_append

/-- The events of the first outcome come first. -/
@[simp] theorem Outcome.eventsOf_cons (o : Outcome) (os : List Outcome) :
    Outcome.eventsOf (o :: os) = o.events ++ Outcome.eventsOf os := List.flatMap_cons

/-- A key and a secret were stored for a device, one right after the other. -/
def Act.Stored (device : Uuid) (acts : List Act) : Prop :=
  ∃ key secret, [.keySaved device key (.ok ()), .secretSaved device secret (.ok ())] <:+: acts

/-- What was stored for a device was stored, whatever is done then. -/
theorem Act.Stored.mono {device : Uuid} {acts acts' : List Act} (h : Act.Stored device acts)
    (more : acts <+: acts') : Act.Stored device acts' := by
  obtain ⟨key, secret, h⟩ := h
  exact ⟨key, secret, h.trans more.isInfix⟩

namespace Channel

variable {ε σ τ : Type} {S : Setting ε σ τ}

/-- The rules for what observers are told over a run: `c` is the channel at its end, and `acts` and `es`
are what was done and told. -/
structure Disciplined (c : Channel ε σ τ) (acts : List Act) (es : List Event) : Prop where
  /-- Of one end at most observers are told: that the channel is established, or that it failed. -/
  once : es.countP Event.isEnd ≤ 1
  /-- The code of a failure is the one that the channel has failed with, until it is closed. -/
  failure : ∀ code, .failed code ∈ es → c.phase = .failed code ∨ c.phase = .closed
  /-- Observers are told of every failure. -/
  failing : ∀ code, c.phase = .failed code → .failed code ∈ es
  /-- Observers are told of every success. -/
  establishing : c.phase = .established → .established ∈ es
  /-- That an association is established follows at once upon the only event that names a device. It
  names the one at the other end, for which a key and a secret were stored. -/
  introduced : c.kind.returning = none → ∀ before after, es = before ++ .established :: after →
    ∃ device early, before = early ++ [.deviceId device] ∧
      (∀ e ∈ early ++ after, e.isDevice = false) ∧ c.device = some device ∧ Act.Stored device acts
  /-- A device is only named if its association is established. -/
  named : ∀ device, .deviceId device ∈ es → c.kind.returning = none ∧ .established ∈ es
  /-- One code at most is shown. -/
  code : es.countP Event.isCode ≤ 1
  /-- After a failure observers are told of refusals only. -/
  afterFailure : ∀ code before after, es = before ++ .failed code :: after →
    ∀ e ∈ after, e.isRefusal = true

/-! ## The story of a run -/

/-- How the handshake of a channel ended, if it did: the events that tell of it. -/
inductive Ended (c : Channel ε σ τ) (acts : List Act) : List Event → Prop where
  /-- It goes on, or the channel was closed before its end. -/
  | unfinished (phase : c.phase = .handshaking ∨ c.phase = .closed) : Ended c acts []
  /-- It was given up. -/
  | failed {code : ErrorCode} (phase : c.phase = .failed code ∨ c.phase = .closed) :
    Ended c acts [.failed code]
  /-- A device was associated. -/
  | associated {device : Uuid} (phase : c.phase = .established ∨ c.phase = .closed)
    (returning : c.kind.returning = none) (known : c.device = some device)
    (stored : Act.Stored device acts) : Ended c acts [.deviceId device, .established]
  /-- A device came back. -/
  | returned {device : Uuid} (phase : c.phase = .established ∨ c.phase = .closed)
    (returning : c.kind.returning = some device) : Ended c acts [.established]

/-- The end of a handshake is the same after a step that leaves the phase or closes the channel. -/
theorem Ended.mono {c c' : Channel ε σ τ} {acts acts' : List Act} {es : List Event}
    (h : Ended c acts es) (phase : c'.phase = c.phase ∨ c'.phase = .closed)
    (returning : c'.kind.returning = c.kind.returning) (device : c'.device = c.device)
    (more : acts <+: acts') : Ended c' acts' es := by
  have hphase : ∀ {p}, c.phase = p ∨ c.phase = .closed → c'.phase = p ∨ c'.phase = .closed := by
    intro p hp
    rcases phase with h | h
    · rwa [h]
    · exact .inr h
  cases h with
  | unfinished hp => exact .unfinished (hphase hp)
  | failed hp => exact .failed (hphase hp)
  | associated hp hreturning known stored =>
    exact .associated (hphase hp) (returning.trans hreturning) (device.trans known)
      (stored.mono more)
  | returned hp hreturning => exact .returned (hphase hp) (returning.trans hreturning)

/-- As long as a channel is handshaking no event has told of an end. -/
theorem Ended.eq_nil {c : Channel ε σ τ} {acts : List Act} {es : List Event} (h : Ended c acts es)
    (phase : c.phase = .handshaking) : es = [] := by
  cases h with
  | unfinished _ => rfl
  | failed hp | associated hp _ _ _ | returned hp _ =>
    rw [phase] at hp
    rcases hp with hp | hp <;> cases hp

/-- What observers were told so far: what may be told early, how the handshake ended, and traffic. -/
inductive Story (c : Channel ε σ τ) (acts : List Act) : List Event → Prop where
  | intro {before ending after : List Event} (early : ∀ e ∈ before, e.isEarly = true)
    (ended : Ended c acts ending) (traffic : ∀ e ∈ after, e.isTraffic = true)
    (refusals : ∀ code, ending = [.failed code] → ∀ e ∈ after, e.isRefusal = true) :
    Story c acts (before ++ ending ++ after)

variable {c : Channel ε σ τ} {acts : List Act} {es : List Event} {t : Turn ε σ τ}

/-- A story goes on with traffic as long as the phase does not change, or ends with the channel. -/
theorem Story.goOn {c' : Channel ε σ τ} {acts' : List Act} {es' : List Event} (h : Story c acts es)
    (phase : c'.phase = c.phase ∨ c'.phase = .closed)
    (returning : c'.kind.returning = c.kind.returning) (device : c'.device = c.device)
    (more : acts <+: acts') (traffic : ∀ e ∈ es', e.isTraffic = true)
    (failed : ∀ code, c.phase = .failed code → ∀ e ∈ es', e.isRefusal = true)
    (closed : c.phase = .closed → es' = []) : Story c' acts' (es ++ es') := by
  obtain @⟨before, ending, after, early, ended, htraffic, refusals⟩ := h
  rw [List.append_assoc]
  refine .intro early (ended.mono phase returning device more) ?_ ?_
  · intro e he
    exact (List.mem_append.1 he).elim (htraffic e) (traffic e)
  · rintro code rfl e he
    rcases List.mem_append.1 he with he | he
    · exact refusals code rfl e he
    · cases ended with
      | failed hp =>
        rcases hp with hp | hp
        · exact failed code hp e he
        · rw [closed hp] at he
          cases he

/-- While the handshake goes on all that was told is early. -/
theorem Story.early (h : Story c acts es) (phase : c.phase = .handshaking) :
    ∀ e ∈ es, e.isEarly = true := by
  obtain @⟨before, ending, after, early, ended, traffic, _⟩ := h
  intro e he
  rw [ended.eq_nil phase, List.append_nil] at he
  exact (List.mem_append.1 he).elim (early e) fun he => Event.isEarly_of_isTraffic (traffic e he)

/-- The handshake ends, with a few words before. -/
theorem Story.finish {c' : Channel ε σ τ} {acts' : List Act} {ending : List Event}
    (h : Story c acts es) (phase : c.phase = .handshaking) (es' : List Event)
    (early : ∀ e ∈ es', e.isEarly = true) (ended : Ended c' acts' ending) : Story c' acts' (es ++ (es' ++ ending)) := by
  have hbefore : ∀ e ∈ es ++ es', e.isEarly = true := fun e he =>
    (List.mem_append.1 he).elim (h.early phase e) (early e)
  have hstory : Story c' acts' (es ++ es' ++ ending ++ []) :=
    .intro hbefore ended (List.forall_mem_nil _) fun _ _ => List.forall_mem_nil _
  rwa [List.append_nil, List.append_assoc] at hstory

/-- Each of the seven upshots carries the story on. -/
theorem Upshot.story (h : Upshot c t) (story : Story c acts es)
    (returning : t.kind.returning = c.kind.returning) :
    Story t.toChannel (acts ++ t.acts) (es ++ t.events) := by
  have more : acts <+: acts ++ t.acts := List.prefix_append ..
  have hnone : ∀ e ∈ ([] : List Event), e.isEarly = true := List.forall_mem_nil _
  -- an upshot that nobody is told of
  have silent : t.events = [] → (t.phase = c.phase ∨ t.phase = .closed) → t.device = c.device →
      Story t.toChannel (acts ++ t.acts) (es ++ t.events) := by
    intro hevents hphase hdevice
    rw [hevents]
    exact story.goOn hphase returning hdevice more (List.forall_mem_nil _)
      (fun _ _ => List.forall_mem_nil _) fun _ => rfl
  cases h with
  | goesOn phase _ duty _ traffic failed closed =>
    exact story.goOn (.inl phase) returning (device_of_duty duty) more traffic failed closed
  | shows before phase _ _ _ _ events =>
    rw [events]
    refine story.finish before [_] ?_ (.unfinished (.inl phase))
    intro e he
    rw [List.mem_singleton.1 he]
    rfl
  | agrees before phase _ _ _ device _ events =>
    exact silent events (.inl (phase.trans before.symm)) device
  | fails before phase _ _ _ refusals events =>
    rw [events]
    exact story.finish before _ (fun e he =>
      Event.isEarly_of_isTraffic (Event.isTraffic_of_isRefusal (refusals e he)))
      (.failed (.inl phase))
  | stores before phase association _ _ known _ events hacts =>
    rw [events]
    refine story.finish before [] hnone
      (.associated (.inl phase) (returning.trans association) known ?_)
    rw [hacts]
    exact ⟨_, _, (List.suffix_append ..).isInfix⟩
  | resumes before phase known _ _ _ _ events =>
    rw [events]
    exact story.finish before [] hnone (.returned (.inl phase) (returning.trans known))
  | closes _ phase _ device _ events => exact silent events (.inr phase) device

/-! ## Codes -/

/-- One code was shown at most, and none as long as the stage in which codes are shown lasts. -/
structure Sparing (c : Channel ε σ τ) (es : List Event) : Prop where
  /-- One at most. -/
  atMost : es.countP Event.isCode ≤ 1
  /-- None so far, as long as the second frame may be due. -/
  none : c.stage.rank ≤ Stage.inProgress.rank → es.countP Event.isCode = 0

/-- A code that was shown is not shown again by events that show none. -/
theorem Sparing.goOn {c' : Channel ε σ τ} {es' : List Event} (h : Sparing c es)
    (rank : c.stage.rank ≤ c'.stage.rank) (codeless : ∀ e ∈ es', e.isCode = false) :
    Sparing c' (es ++ es') := by
  have hcount : (es ++ es').countP Event.isCode = es.countP Event.isCode := by
    have hnone : es'.countP Event.isCode = 0 :=
      List.countP_eq_zero.2 fun e he => by simp [codeless e he]
    rw [List.countP_append, hnone, Nat.add_zero]
  refine ⟨by rw [hcount]; exact h.atMost, fun hrank => ?_⟩
  rw [hcount]
  exact h.none (Nat.le_trans rank hrank)

/-- Whatever comes of a call, a code is shown only from the stage at which none was shown before. -/
theorem Upshot.sparing (h : Upshot c t) (sparing : Sparing c es) :
    Sparing t.toChannel (es ++ t.events) := by
  have hrank := h.rank_le
  cases h with
  | shows _ _ _ _ inProgress stage events =>
    have hnone : es.countP Event.isCode = 0 :=
      sparing.none (Nat.le_of_eq (congrArg Stage.rank inProgress))
    rw [events]
    refine ⟨?_, fun h => ?_⟩
    · rw [List.countP_append, hnone]
      exact Nat.le_refl 1
    · rw [stage] at h
      exact absurd h (by decide)
  | goesOn _ _ _ _ traffic _ _ =>
    exact sparing.goOn hrank fun e he => Event.isCode_of_isTraffic (traffic e he)
  | fails _ _ _ _ _ refusals events =>
    refine sparing.goOn hrank fun e he => ?_
    rw [events] at he
    rcases List.mem_append.1 he with he | he
    · exact Event.isCode_of_isTraffic (Event.isTraffic_of_isRefusal (refusals e he))
    · rw [List.mem_singleton.1 he]
      rfl
  | agrees _ _ _ _ _ _ _ events | stores _ _ _ _ _ _ _ events _ | resumes _ _ _ _ _ _ _ events
  | closes _ _ _ _ _ events =>
    refine sparing.goOn hrank fun e he => ?_
    rw [events] at he
    revert e
    simp [Event.isCode]

/-! ## Runs -/

/-- Story and codes together are what a run of a sound channel keeps. -/
theorem story_run (ms : List (Move σ τ)) (sound : c.Sound) (phase : c.phase = .handshaking) :
    Story (c.run S ms).2 (Outcome.actsOf (c.run S ms).1) (Outcome.eventsOf (c.run S ms).1) ∧
      Sparing (c.run S ms).2 (Outcome.eventsOf (c.run S ms).1) := by
  have h : (c.run S ms).2.Sound ∧
      Story (c.run S ms).2 (Outcome.actsOf (c.run S ms).1) (Outcome.eventsOf (c.run S ms).1) ∧
      Sparing (c.run S ms).2 (Outcome.eventsOf (c.run S ms).1) := by
    refine run_induction (P := fun os d => d.Sound ∧ Story d (Outcome.actsOf os)
      (Outcome.eventsOf os) ∧ Sparing d (Outcome.eventsOf os)) ⟨sound, ?_, ?_⟩ ?_
    · show Story c [] ([] ++ [] ++ [])
      exact .intro (List.forall_mem_nil _) (.unfinished (.inl phase)) (List.forall_mem_nil _)
        fun _ _ => List.forall_mem_nil _
    · exact ⟨Nat.zero_le 1, fun _ => rfl⟩
    · rintro os d m _ ⟨hsound, hstory, hsparing⟩
      obtain ⟨t, ht, hd, hevents, hacts⟩ := upshot_move (S := S) m hsound
      have hreturning : t.kind.returning = d.kind.returning := by
        rw [← returning_move (S := S) m hsound, ← hd]
      rw [Outcome.actsOf_append, Outcome.eventsOf_append, Outcome.actsOf_singleton,
        Outcome.eventsOf_cons, Outcome.eventsOf_nil, List.append_nil, ← hevents, ← hacts]
      refine ⟨sound_move m hsound, ?_⟩
      rw [← hd]
      exact ⟨ht.story hstory hreturning, ht.sparing hsparing⟩
  exact h.2

/-- A closed channel stays closed, and nobody is told of anything any more. -/
theorem silent_run (ms : List (Move σ τ)) (sound : c.Sound) (closed : c.phase = .closed) :
    Outcome.eventsOf (c.run S ms).1 = [] := by
  have h : (c.run S ms).2.Sound ∧ (c.run S ms).2.phase = .closed ∧
      Outcome.eventsOf (c.run S ms).1 = [] := by
    refine run_induction (P := fun os d => d.Sound ∧ d.phase = .closed ∧ Outcome.eventsOf os = [])
      ⟨sound, closed, rfl⟩ ?_
    rintro os d m _ ⟨hsound, hclosed, hsilent⟩
    obtain ⟨t, ht, hd, hevents, -⟩ := upshot_move (S := S) m hsound
    refine ⟨sound_move m hsound, ?_⟩
    rw [Outcome.eventsOf_append, hsilent, ← hd, Outcome.eventsOf_cons, ← hevents]
    cases ht with
    | goesOn phase _ _ _ _ _ silent => exact ⟨phase.trans hclosed, by rw [silent hclosed]; rfl⟩
    | shows before _ _ _ _ _ _ | agrees before _ _ _ _ _ _ _ | fails before _ _ _ _ _ _
    | stores before _ _ _ _ _ _ _ _ | resumes before _ _ _ _ _ _ _ =>
      rw [hclosed] at before
      cases before
    | closes notClosed _ _ _ _ _ => exact absurd hclosed notClosed
  exact h.2.2

/-- Whatever the channel was doing, it is closed then, and nobody is told. -/
theorem close_turn (c : Channel ε σ τ) : c.turn.close.phase = .closed ∧ c.turn.close.events = [] := by
  unfold Turn.close
  split
  · next phase hphase => exact ⟨(Phase.transition_eq_ok_iff.1 hphase).1, rfl⟩
  · next e he =>
    refine ⟨?_, rfl⟩
    by_contra hopen
    have hcloses := Phase.transition_eq_ok_iff.2 ⟨rfl, .inr ⟨hopen, rfl⟩⟩
    rw [he] at hcloses
    cases hcloses

/-- A call that reports a failure leaves the channel failed with that code. -/
theorem Upshot.phase_of_failed {code : ErrorCode} (h : Upshot c t)
    (told : .failed code ∈ t.events) : t.phase = .failed code := by
  have hnot : ∀ {e : Event}, e.isTraffic = true → e ≠ .failed code := by
    rintro e he rfl
    cases he
  cases h with
  | goesOn _ _ _ _ traffic _ _ => exact absurd rfl (hnot (traffic _ told))
  | fails _ phase _ _ _ refusals events =>
    rw [events] at told
    rcases List.mem_append.1 told with told | told
    · exact absurd rfl (hnot (Event.isTraffic_of_isRefusal (refusals _ told)))
    · obtain rfl : code = _ := by simpa using told
      exact phase
  | shows _ _ _ _ _ _ events | agrees _ _ _ _ _ _ _ events | stores _ _ _ _ _ _ _ events _
  | resumes _ _ _ _ _ _ _ events | closes _ _ _ _ _ events =>
    rw [events] at told
    simp at told

/-! ## The rules -/

/-- The event that tells of the end is the last of those that do. -/
theorem Ended.eq_concat {e : Event} (h : Ended c acts es) (he : e.isEnd = true) (told : e ∈ es) :
    ∃ words, es = words ++ [e] ∧ e ∉ words := by
  cases h with
  | unfinished _ => cases told
  | failed _ | returned _ _ => exact ⟨[], by rw [List.mem_singleton.1 told]; rfl, by simp⟩
  | @associated device _ _ _ _ =>
    rcases List.mem_cons.1 told with rfl | told
    · cases he
    · exact ⟨[.deviceId device], by rw [List.mem_singleton.1 told]; rfl, by
        rw [List.mem_singleton.1 told]
        simp⟩

/-- The only place where a story may tell of the end. -/
theorem Story.of_isEnd {e : Event} {told rest : List Event} (h : Story c acts (told ++ e :: rest))
    (he : e.isEnd = true) :
    ∃ early words, told = early ++ words ∧ (∀ e' ∈ early, e'.isEarly = true) ∧
      Ended c acts (words ++ [e]) ∧ (∀ e' ∈ rest, e'.isTraffic = true) ∧
      (∀ code, words ++ [e] = [.failed code] → ∀ e' ∈ rest, e'.isRefusal = true) := by
  generalize hes : told ++ e :: rest = es at h
  obtain @⟨before, ending, after, early, ended, traffic, refusals⟩ := h
  have hbefore : e ∉ before := fun h => by
    rw [Event.isEnd_of_isEarly (early e h)] at he
    cases he
  have hafter : e ∉ after := fun h => by
    rw [Event.isEnd_of_isEarly (Event.isEarly_of_isTraffic (traffic e h))] at he
    cases he
  have hending : e ∈ ending := by
    have hmem : e ∈ before ++ ending ++ after := by
      rw [← hes]
      exact List.mem_append_right _ List.mem_cons_self
    simpa [hbefore, hafter] using hmem
  obtain ⟨words, rfl, hwords⟩ := ended.eq_concat he hending
  have hsplit : (before ++ words) ++ e :: after = told ++ e :: rest := by
    rw [hes]
    simp
  have hnot : e ∉ before ++ words := fun h => (List.mem_append.1 h).elim hbefore hwords
  obtain ⟨rfl, -, rfl⟩ := (List.append_cons_inj_of_notMem hnot hafter).1 hsplit
  exact ⟨before, words, rfl, early, ended, traffic, refusals⟩

/-- Where the last event of the end is a failure it is the only one, and the channel has failed or was closed
then. -/
theorem Ended.of_failed {code : ErrorCode} {words : List Event}
    (h : Ended c acts (words ++ [.failed code])) :
    words = [] ∧ (c.phase = .failed code ∨ c.phase = .closed) := by
  generalize hes : words ++ [.failed code] = es at h
  cases h with
  | unfinished _ => simp at hes
  | @failed code' phase =>
    have hes : words ++ [.failed code] = [] ++ [.failed code'] := hes
    obtain ⟨rfl, hlast⟩ := List.append_singleton_inj.1 hes
    cases hlast
    exact ⟨rfl, phase⟩
  | @associated device _ _ _ _ =>
    have hes : words ++ [.failed code] = [.deviceId device] ++ [.established] := hes
    cases (List.append_singleton_inj.1 hes).2
  | returned _ _ =>
    have hes : words ++ [.failed code] = [] ++ [.established] := hes
    cases (List.append_singleton_inj.1 hes).2

/-- Where the last event of the end is that an association is established, the device was named before it and
stored before that. -/
theorem Ended.of_established {words : List Event} (h : Ended c acts (words ++ [.established]))
    (returning : c.kind.returning = none) :
    ∃ device, words = [.deviceId device] ∧ c.device = some device ∧ Act.Stored device acts := by
  generalize hes : words ++ [.established] = es at h
  cases h with
  | unfinished _ => simp at hes
  | @failed code _ =>
    have hes : words ++ [.established] = [] ++ [.failed code] := hes
    cases (List.append_singleton_inj.1 hes).2
  | @associated device _ _ known stored =>
    have hes : words ++ [.established] = [.deviceId device] ++ [.established] := hes
    exact ⟨device, (List.append_singleton_inj.1 hes).1, known, stored⟩
  | returned _ hreturning =>
    rw [returning] at hreturning
    cases hreturning

/-- A story in which codes are spared obeys all the rules for events. -/
theorem Story.disciplined (h : Story c acts es) (sparing : Sparing c es) :
    Disciplined c acts es where
  once := by
    obtain @⟨before, ending, after, early, ended, traffic, _⟩ := h
    have hbefore : before.countP Event.isEnd = 0 :=
      List.countP_eq_zero.2 fun e he => by simp [Event.isEnd_of_isEarly (early e he)]
    have hafter : after.countP Event.isEnd = 0 := List.countP_eq_zero.2 fun e he => by
      simp [Event.isEnd_of_isEarly (Event.isEarly_of_isTraffic (traffic e he))]
    rw [List.countP_append, List.countP_append, hbefore, hafter]
    cases ended <;> simp [Event.isEnd]
  failure code told := by
    obtain ⟨before, after, rfl⟩ := List.append_of_mem told
    obtain ⟨_, words, _, _, ended, _⟩ := h.of_isEnd rfl
    exact ended.of_failed.2
  failing code phase := by
    obtain @⟨before, ending, after, _, ended, _, _⟩ := h
    cases ended with
    | unfinished hp | associated hp _ _ _ | returned hp _ =>
      rw [phase] at hp
      rcases hp with hp | hp <;> cases hp
    | failed hp =>
      rw [phase] at hp
      rcases hp with hp | hp <;> cases hp
      simp
  establishing phase := by
    obtain @⟨before, ending, after, _, ended, _, _⟩ := h
    cases ended with
    | unfinished hp | failed hp =>
      rw [phase] at hp
      rcases hp with hp | hp <;> cases hp
    | associated _ _ _ _ | returned _ _ => simp
  introduced returning before after hes := by
    subst hes
    obtain ⟨early, words, rfl, hearly, ended, traffic, _⟩ := h.of_isEnd rfl
    obtain ⟨device, rfl, known, stored⟩ := ended.of_established returning
    refine ⟨device, early, rfl, fun e he => ?_, known, stored⟩
    exact Event.isDevice_of_isEarly
      ((List.mem_append.1 he).elim (hearly e) fun he => Event.isEarly_of_isTraffic (traffic e he))
  named device told := by
    obtain @⟨before, ending, after, early, ended, traffic, _⟩ := h
    have hnot : ∀ {e : Event}, e.isEarly = true → e ≠ .deviceId device := by
      rintro e he rfl
      cases he
    have hending : Event.deviceId device ∈ ending := by
      rcases List.mem_append.1 told with told | told
      · exact (List.mem_append.1 told).resolve_left fun h => hnot (early _ h) rfl
      · exact absurd rfl (hnot (Event.isEarly_of_isTraffic (traffic _ told)))
    cases ended with
    | unfinished _ | failed _ | returned _ _ => simp at hending
    | associated _ returning _ _ => exact ⟨returning, by simp⟩
  code := sparing.atMost
  afterFailure code before after hes := by
    subst hes
    obtain ⟨_, words, _, _, ended, _, refusals⟩ := h.of_isEnd rfl
    obtain ⟨rfl, _⟩ := ended.of_failed
    exact refusals code rfl

/-- The events of every run of a new channel, of whichever kind and with whatever collaborators, obey the
rules. A call that reports a failure leaves the channel failed with the reported code, and once the
channel is closed, nothing is told any more. -/
theorem disciplined_run {c₀ : Channel ε σ τ} (new : New S c₀) (ms ms' : List (Move σ τ)) :
    Disciplined (c₀.run S ms).2 (Outcome.actsOf (c₀.run S ms).1)
      (Outcome.eventsOf (c₀.run S ms).1) ∧
    (∀ m code, .failed code ∈ ((c₀.run S ms).2.move S m).1.events →
      ((c₀.run S ms).2.move S m).2.phase = .failed code) ∧
    Outcome.eventsOf (c₀.run S (ms ++ .call .close :: ms')).1 =
      Outcome.eventsOf (c₀.run S ms).1 := by
  have hsound := sound_run (S := S) ms new.sound
  refine ⟨?_, fun m code told => ?_, ?_⟩
  · obtain ⟨hstory, hsparing⟩ := story_run (S := S) ms new.sound new.phase
    exact hstory.disciplined hsparing
  · obtain ⟨t, ht, hd, hevents, _⟩ := upshot_move (S := S) m hsound
    rw [← hd]
    rw [← hevents] at told
    exact ht.phase_of_failed told
  · obtain ⟨hclosed, hevents⟩ := close_turn (c₀.run S ms).2
    have hsilent : Outcome.eventsOf (((c₀.run S ms).2.move S (.call .close)).2.run S ms').1 = [] :=
      silent_run ms' (sound_move (.call .close) hsound) hclosed
    have htold : ((c₀.run S ms).2.move S (.call .close)).1.events = [] := hevents
    rw [run_append, run_cons, Outcome.eventsOf_append, Outcome.eventsOf_cons, hsilent, htold,
      List.append_nil, List.append_nil]

/-- An association is established and closed, and then a message arrives: a code, the device and the
success are told of, in this order, and nothing after them. -/
theorem disciplined_until_closed :
    Outcome.eventsOf ((Bench.associating .empty).run Bench.setting untilEstablished).1 =
      [.showCode 0 "123456", .deviceId Bench.peer, .established] ∧
    Disciplined ((Bench.associating .empty).run Bench.setting untilEstablished).2
      (Outcome.actsOf ((Bench.associating .empty).run Bench.setting untilEstablished).1)
      (Outcome.eventsOf ((Bench.associating .empty).run Bench.setting untilEstablished).1) ∧
    Outcome.eventsOf ((Bench.associating .empty).run Bench.setting
        (untilEstablished ++ [.call .close, .call (.arrived ⟨none, false, []⟩ .client)])).1 =
      [.showCode 0 "123456", .deviceId Bench.peer, .established] := by
  have htold : Outcome.eventsOf ((Bench.associating .empty).run Bench.setting untilEstablished).1 =
      [.showCode 0 "123456", .deviceId Bench.peer, .established] := by
    decide +kernel
  have hnew : New Bench.setting (Bench.associating .empty) := .association (.visual ..)
  have h := disciplined_run hnew untilEstablished [.call (.arrived ⟨none, false, []⟩ .client)]
  exact ⟨htold, h.1, h.2.2.trans htold⟩

end Channel

end DevicePairing
