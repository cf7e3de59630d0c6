import DevicePairing.Proofs.Channel.Constancy

/-!
# Channels at their end

A channel that has failed or was closed holds none of the secrets of its handshake: neither its key nor
the key that waits for the last frame, neither the code it has sent nor the answer it has expected. What
comes in afterwards brings none of them back, and has the channel ask, write and keep nothing.
`Channel.dormant_run` says so for every run of a new channel of any kind.

Secrets are put aside by different steps, and any of the steps after them may give up. But no step moves a
channel to its end by itself (`Turn.dependsOn_isTerminal`); that is left to giving up and to closing, which
drop everything at once. So what has ended is bare (`Channel.bare_serve`), and without a key and with the
handshake over there is nothing left for a call to do (`Channel.inert_serve`).
-/

namespace DevicePairing

/-- The code of our own that an association has sent out under its out-of-band cipher. -/
def Kind.sentCode : Kind → Option Bytes
  | .association (.outOfBand _ code) _ _ => code
  | _ => none

/-- What the first frame of a device that comes back has to start with. -/
def Kind.expected : Kind → Option Bytes
  | .association .. => none
  | .reconnection _ expected _ => expected

variable {ε σ τ : Type} {S : Setting ε σ τ}

/-- A channel holds none of the secrets of its handshake. -/
structure Channel.Bare (c : Channel ε σ τ) : Prop where
  /-- There is no key. -/
  key : c.key = none
  /-- No key waits for the last frame. -/
  pendingKey : c.kind.pendingKey = none
  /-- The code that was sent is not kept. -/
  sentCode : c.kind.sentCode = none
  /-- No answer is expected. -/
  expected : c.kind.expected = none

/-- Whether a channel is bare shows in its key and its kind. -/
theorem Channel.Bare.congr {c c' : Channel ε σ τ} (h : c.Bare) (key : c'.key = c.key)
    (kind : c'.kind = c.kind) : c'.Bare where
  key := key.trans h.key
  pendingKey := (congrArg Kind.pendingKey kind).trans h.pendingKey
  sentCode := (congrArg Kind.sentCode kind).trans h.sentCode
  expected := (congrArg Kind.expected kind).trans h.expected

/-! ## What has ended is bare -/

/-- Where the secrets are dropped, none of them is left. -/
theorem Turn.bare_wipe (t : Turn ε σ τ) : t.wipe.Bare := by
  unfold wipe
  rcases t.kind with ⟨_ | _, _, _⟩ | _ <;> exact ⟨rfl, rfl, rfl, rfl⟩

/-- Who gives up drops everything, unless nothing comes of it. -/
theorem Turn.bare_fail {t : Turn ε σ τ} {code : ErrorCode} (alive : t.phase.isTerminal = false)
    (ended : (t.fail code).phase.isTerminal = true) : (t.fail code).Bare := by
  by_cases hphase : t.phase = .handshaking
  · rw [fail_of_handshaking hphase]
    exact t.bare_wipe.congr rfl rfl
  · rw [fail_of_over hphase, alive] at ended
    cases ended

/-- Nothing that steps of a handshake do moves a channel to its end, or away from it. -/
theorem Turn.dependsOn_isTerminal : DependsOn S [] (fun t => t.phase.isTerminal) := by
  rintro x t t' h -
  cases h with
  | @establish phase _ opened =>
    obtain ⟨rfl, hopen⟩ := Phase.transition_eq_ok_iff.1 opened
    rcases hopen with ⟨hbefore, _⟩ | ⟨_, hclosed⟩
    · show Phase.established.isTerminal = t.phase.isTerminal
      rw [hbefore]
      rfl
    · cases hclosed
  | _ => rfl

/-- So no step of a handshake is the end of it by itself, whether it succeeds or not. -/
theorem Work.Footprint.isTerminal_eq {touches : List Touch} {w : Work ε σ τ Unit}
    (footprint : Footprint S touches w) (t : Turn ε σ τ) :
    (w t).2.phase.isTerminal = t.phase.isTerminal :=
  footprint.leaves Turn.dependsOn_isTerminal (fun _ _ => List.not_mem_nil) t

namespace Channel

variable {c : Channel ε σ τ}

/-- A step that is the end of a channel was given up, and who gives up drops everything. -/
theorem bare_attempt {touches : List Touch} {w : Work ε σ τ Unit} (alive : c.phase.isTerminal = false)
    (footprint : Work.Footprint S touches w)
    (ended : (c.turn.attempt w).phase.isTerminal = true) : (c.turn.attempt w).Bare := by
  have hleft : (w c.turn).2.phase.isTerminal = false := (footprint.isTerminal_eq c.turn).trans alive
  rw [Turn.attempt_eq_settle] at ended ⊢
  generalize (w c.turn).1 = r, (w c.turn).2 = t at *
  cases r with
  | ok _ =>
    rw [show (t.settle (.ok ())).phase = t.phase from rfl, hleft] at ended
    cases ended
  | error code => exact Turn.bare_fail hleft ended

/-- However a call brings a channel to its end, the channel is bare then. -/
theorem bare_serve (bare : c.phase.isTerminal = true → c.Bare) (i : Call)
    (ended : (c.serve S i).phase.isTerminal = true) : (c.serve S i).Bare := by
  have hdispatched := dispatched_serve (S := S) i c
  have halive : c.phase = .handshaking → c.phase.isTerminal = false := by
    intro h
    rw [h]
    rfl
  generalize c.serve S i = t at *
  cases hdispatched with
  | idle | told _ _ _ => exact bare ended
  | sent prepares _ keyed _ _ =>
    rw [prepares.phase] at ended
    exact absurd (bare ended).key keyed
  | unreadable phase | premature phase => exact Turn.bare_fail (halive phase) ended
  | frame phase _ step =>
    exact bare_attempt (halive phase) (footprint_setsOff step) ended
  | accepted phase _ _ =>
    exact bare_attempt (halive phase) (Association.asksFirst_accept (S := S)).footprint ended
  | closed _ => exact c.turn.bare_wipe.congr rfl rfl

/-- However a run brings a channel to its end, the channel is bare then. -/
theorem bare_run (ms : List (Move σ τ)) (bare : c.phase.isTerminal = true → c.Bare)
    (ended : (c.run S ms).2.phase.isTerminal = true) : (c.run S ms).2.Bare := by
  revert ended
  refine run_induction (P := fun _ d => d.phase.isTerminal = true → d.Bare) bare ?_
  intro _ d m _ hbare
  cases m with
  | call i =>
    show (d.call S i).2.phase.isTerminal = true → (d.call S i).2.Bare
    rw [call_channel]
    exact bare_serve hbare i
  | _ => exact fun ended => (hbare ended).congr rfl rfl

/-! ## What is bare and over does nothing -/

/-- In a call a channel has nothing done: all its collaborators are as they were, and it lets go of the
stream at most. -/
structure Inert (c c' : Channel ε σ τ) (acts : List Act) : Prop where
  /-- The engine was not asked. -/
  engine : c'.engine = c.engine
  /-- The store was neither asked nor handed anything. -/
  store : c'.store = c.store
  /-- Nothing was written. -/
  stream : c'.stream = c.stream
  /-- Nothing was drawn. -/
  tape : c'.tape = c.tape
  /-- All that was done is to stop listening. -/
  acts : ∀ a ∈ acts, a = .listening false

/-- A bare channel at its end does nothing in a call, and stays at its end. -/
theorem inert_serve (ended : c.phase.isTerminal = true) (bare : c.Bare) (i : Call) :
    Inert c (c.serve S i).toChannel (c.serve S i).acts ∧ (c.serve S i).phase.isTerminal = true := by
  have hended : c.phase ≠ .handshaking := by
    intro h
    rw [h] at ended
    cases ended
  have hdispatched := dispatched_serve (S := S) i c
  generalize c.serve S i = t at *
  cases hdispatched with
  | idle | told _ _ _ => exact ⟨⟨rfl, rfl, rfl, rfl, List.forall_mem_nil _⟩, ended⟩
  | sent _ _ keyed _ _ => exact absurd bare.key keyed
  | unreadable phase | premature phase | frame phase _ _ | accepted phase _ _ =>
    exact absurd phase hended
  | closed _ => exact ⟨⟨rfl, rfl, rfl, rfl, fun a ha => List.mem_singleton.1 ha⟩, rfl⟩

variable (S) in
/-- A channel is at its end: it holds no secret, and no call has it do anything. -/
structure Dormant (c : Channel ε σ τ) : Prop where
  /-- It has failed or is closed. -/
  ended : c.phase.isTerminal = true
  /-- It holds no secret. -/
  bare : c.Bare
  /-- No call has it do anything. -/
  inert : ∀ i, Inert c (c.call S i).2 (c.call S i).1.acts

/-- So it is dormant. -/
theorem dormant_of_bare (ended : c.phase.isTerminal = true) (bare : c.Bare) : Dormant S c := by
  refine ⟨ended, bare, fun i => ?_⟩
  rw [call_channel, call_acts]
  exact (inert_serve ended bare i).1

/-- A move of any kind leaves a dormant channel dormant and its engine alone. -/
theorem Dormant.move (h : Dormant S c) (m : Move σ τ) :
    Dormant S (c.move S m).2 ∧ (c.move S m).2.engine = c.engine ∧
      ∀ a ∈ (c.move S m).1.acts, a = .listening false := by
  cases m with
  | call i =>
    have hinert := h.inert i
    have hthen : (c.call S i).2.phase.isTerminal = true := by
      rw [call_channel]
      exact (inert_serve h.ended h.bare i).2
    have hbare : (c.call S i).2.Bare := by
      rw [call_channel] at hthen ⊢
      exact bare_serve (fun _ => h.bare) i hthen
    exact ⟨dormant_of_bare hthen hbare, hinert.engine, hinert.acts⟩
  | _ => exact ⟨dormant_of_bare h.ended (h.bare.congr rfl rfl), rfl, List.forall_mem_nil _⟩

/-- Once a channel of any kind has failed or is closed, it is dormant and stays so: its secrets are gone, and
whatever happens then, it neither asks its engine nor writes to its stream nor uses its store. -/
theorem dormant_run {c₀ : Channel ε σ τ} (new : New S c₀) (ms : List (Move σ τ))
    (ended : (c₀.run S ms).2.phase.isTerminal = true) (ms' : List (Move σ τ)) :
    Dormant S (c₀.run S (ms ++ ms')).2 ∧
      (c₀.run S (ms ++ ms')).2.engine = (c₀.run S ms).2.engine ∧
      ∀ a ∈ Outcome.actsOf ((c₀.run S ms).2.run S ms').1, a = .listening false := by
  have hdormant : Dormant S (c₀.run S ms).2 := by
    refine dormant_of_bare ended (bare_run ms (fun h => ?_) ended)
    rw [new.phase] at h
    cases h
  rw [run_append]
  refine run_induction (P := fun os d => Dormant S d ∧ d.engine = (c₀.run S ms).2.engine ∧
    ∀ a ∈ Outcome.actsOf os, a = .listening false) ⟨hdormant, rfl, List.forall_mem_nil _⟩ ?_
  rintro os d m _ ⟨hd, hengine, hacts⟩
  obtain ⟨hmoved, hasked, hdone⟩ := hd.move m
  refine ⟨hmoved, hasked.trans hengine, ?_⟩
  rw [Outcome.actsOf_append, Outcome.actsOf_singleton]
  exact List.forall_mem_append.2 ⟨hacts, hdone⟩

/-- What comes in once a channel has failed: the frame it had waited for, a message, an acceptance, and
then it is closed. -/
def belated : List (Move Bench.Vault Bench.Outlet) :=
  [.frame lastFrame, .call (.send ⟨none, false, [1]⟩), .call .accept, .call .close, .frame [1]]

/-- An association with a key that waits fails at a frame that names no device, and what comes in then is in
vain. -/
theorem dormant_after_unnamed_frame :
    ((Bench.associating .empty).run Bench.setting untilAccepted).2.kind.pendingKey =
      some Bench.agreedKey ∧
    ((Bench.associating .empty).run Bench.setting (untilAccepted ++ [.frame []])).2.phase =
      .failed .invalidDeviceId ∧
    Dormant Bench.setting ((Bench.associating .empty).run Bench.setting
      (untilAccepted ++ [.frame []])).2 ∧
    Dormant Bench.setting ((Bench.associating .empty).run Bench.setting
      (untilAccepted ++ [.frame []] ++ belated)).2 := by
  have hphase : ((Bench.associating .empty).run Bench.setting (untilAccepted ++ [.frame []])).2.phase =
      .failed .invalidDeviceId := by
    decide +kernel
  have hnew : New Bench.setting (Bench.associating .empty) := .association (.visual ..)
  have h := dormant_run hnew (untilAccepted ++ [.frame []]) (by rw [hphase]; rfl)
  refine ⟨by decide +kernel, hphase, ?_, (h belated).1⟩
  have hnow := (h []).1
  rwa [List.append_nil] at hnow

end Channel

end DevicePairing
