import DevicePairing.Proofs.Channel.Authenticity
import DevicePairing.Proofs.Channel.Upshot
import Mathlib.Data.List.Induction

/-!
# What a channel keeps

The engine of a channel may reply whatever it likes, its store may refuse, and its stream may fail; what
the channel keeps all the same is the subject of this file. `Channel.Consistent` relates the parts of its
state between two calls, `Channel.Develops` says how the state at one moment of a run bears on the state
at a later one, and the device of an association is known exactly if the channel has been established.
`Channel.consistent_and_develops` states all three for every run of a new channel of any kind.

The first is the soundness of channels in other words. The other two are inductions over runs whose steps
are the seven upshots of a call; for the key the invariant is that it is the same, or gone with the
channel at its end.
-/

namespace DevicePairing.Channel

variable {ε σ τ : Type} {S : Setting ε σ τ}

/-- The state of a channel between two calls makes sense. -/
structure Consistent (c : Channel ε σ τ) : Prop where
  /-- A key belongs to a finished handshake, and to a channel that has neither failed nor been closed. -/
  keyed : c.key ≠ none → c.stage = .finished ∧ (c.phase = .handshaking ∨ c.phase = .established)
  /-- An established channel has a key. -/
  established : c.phase = .established → c.key ≠ none
  /-- A key that is there before the channel is established is the one with which an association waits
  for the last frame. -/
  waiting : ∀ key, c.phase = .handshaking → c.key = some key →
    ∃ verification device, c.kind = .association verification (some key) device

/-- One state of a channel may come after another. -/
structure Develops (c c' : Channel ε σ τ) : Prop where
  /-- The handshake does not fall back. -/
  rank : c.stage.rank ≤ c'.stage.rank
  /-- A key is not replaced by another one; it may only be dropped. -/
  key : ∀ key, c.key = some key → c'.key = some key ∨ c'.key = none

variable (S) in
/-- The channels of every kind as they are made. -/
inductive New : Channel ε σ τ → Prop where
  /-- For a first association. -/
  | association {c : Channel ε σ τ} (new : NewAssociation c) : New c
  /-- For the return of a device. -/
  | reconnection {device : Uuid} {c : Channel ε σ τ} (new : NewReconnection S device c) : New c

/-- A new channel of any kind is sound. -/
theorem New.sound {c : Channel ε σ τ} (h : New S c) : c.Sound := by
  cases h with
  | association new => exact new.sound
  | reconnection new => exact new.sound

/-- It is handshaking. -/
theorem New.phase {c : Channel ε σ τ} (h : New S c) : c.phase = .handshaking := by
  cases h with
  | association new =>
    obtain ⟨verification, engine, store, stream, tape, rfl⟩ := new.eq_ofKind
    rfl
  | reconnection new =>
    cases new
    rfl

/-- Its handshake has not begun. -/
theorem New.stage {c : Channel ε σ τ} (h : New S c) : c.stage = .unknown := by
  cases h with
  | association new =>
    obtain ⟨verification, engine, store, stream, tape, rfl⟩ := new.eq_ofKind
    rfl
  | reconnection new =>
    cases new
    rfl

/-- Nobody knows the device of a new association. -/
theorem New.device {c : Channel ε σ τ} (h : New S c) (kind : c.kind.returning = none) :
    c.device = none := by
  cases h with
  | association new =>
    obtain ⟨verification, engine, store, stream, tape, rfl⟩ := new.eq_ofKind
    rfl
  | reconnection new =>
    cases new
    cases kind

/-! ## Between two calls -/

/-- What soundness says of the keys and the stages makes a channel consistent. -/
theorem Sound.consistent {c : Channel ε σ τ} (h : c.Sound) : c.Consistent where
  keyed hkey := by
    refine ⟨h.finished hkey, ?_⟩
    have hopen := h.alive hkey
    rcases hp : c.phase with _ | _ | _ | _
    · exact .inl rfl
    · exact .inr rfl
    all_goals
      rw [hp] at hopen
      cases hopen
  established := h.keyed
  waiting key hphase hkey := by
    have hpending := h.pending hphase
    rw [hkey] at hpending
    rcases hk : c.kind with ⟨verification, pendingKey, device⟩ | ⟨_, _, _⟩
    · rw [hk] at hpending
      exact ⟨verification, device, congrArg (Kind.association verification · device) hpending⟩
    · rw [hk] at hpending
      cases hpending

/-! ## From one moment to a later one -/

variable {c : Channel ε σ τ}

/-- Whatever comes of a call, the stage does not fall back. -/
theorem Upshot.rank_le {t : Turn ε σ τ} (h : Upshot c t) : c.stage.rank ≤ t.stage.rank := by
  cases h with
  | goesOn _ _ _ rank _ _ _ | fails _ _ _ _ rank _ _ => exact rank
  | shows _ _ _ _ inProgress stage _ =>
    rw [inProgress, stage]
    decide
  | agrees _ _ _ _ _ _ stage _ | resumes _ _ _ _ _ _ stage _ =>
    rw [stage]
    exact c.stage.rank_le_finished
  | stores _ _ _ _ _ _ stage _ _ | closes _ _ _ _ stage _ => exact Nat.le_of_eq (by rw [stage])

/-- So it does not in a whole run. -/
theorem rank_le_run (ms : List (Move σ τ)) (sound : c.Sound) :
    c.stage.rank ≤ (c.run S ms).2.stage.rank := by
  have h : (c.run S ms).2.Sound ∧ c.stage.rank ≤ (c.run S ms).2.stage.rank := by
    refine run_induction (P := fun _ d => d.Sound ∧ c.stage.rank ≤ d.stage.rank)
      ⟨sound, Nat.le_refl _⟩ ?_
    rintro _ d m _ ⟨hsound, hrank⟩
    obtain ⟨t, ht, hd, _⟩ := upshot_move (S := S) m hsound
    rw [← hd]
    exact ⟨hd ▸ sound_move m hsound, Nat.le_trans hrank ht.rank_le⟩
  exact h.2

/-- A key that was set is still there, or it was dropped for good. -/
def Holds (c : Channel ε σ τ) (key : SessionKey) : Prop :=
  c.key = some key ∨ c.key = none ∧ c.phase.isTerminal = true

/-- Nothing but going on and closing can come of a call to a channel at its end, and neither sets a key;
before the end, a key is only set where there is none. -/
theorem Upshot.holds {t : Turn ε σ τ} {key : SessionKey} (h : Upshot c t) (held : c.Holds key) :
    t.toChannel.Holds key := by
  have hhandshaking : c.phase = .handshaking → c.key = some key := by
    rintro hp
    rcases held with held | ⟨_, hover⟩
    · exact held
    · rw [hp] at hover
      cases hover
  cases h with
  | goesOn phase hkey _ _ _ _ _ =>
    rcases held with held | ⟨hnone, hover⟩
    · exact .inl (hkey.trans held)
    · exact .inr ⟨hkey.trans hnone, by rw [phase, hover]⟩
  | shows before _ hkey _ _ _ _ => exact .inl (hkey.trans (hhandshaking before))
  | agrees before _ _ fresh _ _ _ _ | resumes before _ _ fresh _ _ _ _ =>
    rw [hhandshaking before] at fresh
    cases fresh
  | fails _ phase hkey _ _ _ _ => exact .inr ⟨hkey, by rw [phase]; rfl⟩
  | stores before _ _ _ hkey _ _ _ _ => exact .inl (hkey.trans (hhandshaking before))
  | closes _ phase hkey _ _ _ => exact .inr ⟨hkey, by rw [phase]; rfl⟩

/-- A key that a channel holds at the start of a run is there at its end, or was dropped for good. -/
theorem holds_run {key : SessionKey} (ms : List (Move σ τ)) (sound : c.Sound)
    (held : c.Holds key) : (c.run S ms).2.Holds key := by
  have h : (c.run S ms).2.Sound ∧ (c.run S ms).2.Holds key := by
    refine run_induction (P := fun _ d => d.Sound ∧ d.Holds key) ⟨sound, held⟩ ?_
    rintro _ d m _ ⟨hsound, hheld⟩
    obtain ⟨t, ht, hd, _⟩ := upshot_move (S := S) m hsound
    rw [← hd]
    exact ⟨hd ▸ sound_move m hsound, ht.holds hheld⟩
  exact h.2

/-- What a run makes of a sound channel is a state that may come after the first one. -/
theorem Sound.develops (ms : List (Move σ τ)) (sound : c.Sound) : c.Develops (c.run S ms).2 where
  rank := rank_le_run ms sound
  key key hkey := by
    rcases holds_run (S := S) ms sound (.inl hkey : c.Holds key) with h | ⟨h, _⟩
    · exact .inl h
    · exact .inr h

/-! ## The device of an association -/

/-- Of the peer of an association nothing is known while the handshake lasts, and if the channel is
established it is known. -/
structure Acquainted (c : Channel ε σ τ) : Prop where
  /-- The channel is for an association. -/
  association : c.kind.returning = none
  /-- Nobody knows the device yet. -/
  unknown : c.phase = .handshaking → c.device = none
  /-- The device is known. -/
  known : c.phase = .established → c.device ≠ none

/-- A call to an association leaves the device as it was, or it is established with it. -/
theorem Upshot.device_eq_or {t : Turn ε σ τ} (h : Upshot c t) (acquainted : c.Acquainted) :
    t.device = c.device ∨ c.device = none ∧ t.device ≠ none ∧ t.phase = .established := by
  cases h with
  | goesOn _ _ duty _ _ _ _ | shows _ _ _ duty _ _ _ => exact .inl (device_of_duty duty)
  | agrees _ _ _ _ _ device _ _ | fails _ _ _ device _ _ _ | closes _ _ _ device _ _ =>
    exact .inl device
  | stores before phase _ _ _ known _ _ _ =>
    exact .inr ⟨acquainted.unknown before, by rw [known]; exact Option.some_ne_none _, phase⟩
  | resumes _ _ returning _ _ _ _ _ =>
    rw [acquainted.association] at returning
    cases returning

/-- Whatever comes of a call, a channel that was established has got to know its device. -/
theorem Upshot.acquainted {t : Turn ε σ τ} (h : Upshot c t) (acquainted : c.Acquainted)
    (association : t.kind.returning = none) : t.toChannel.Acquainted := by
  refine ⟨association, fun hp => ?_, fun hp => ?_⟩
  · cases h with
    | goesOn phase _ duty _ _ _ _ =>
      exact (device_of_duty duty).trans (acquainted.unknown (phase.symm.trans hp))
    | shows before _ _ duty _ _ _ => exact (device_of_duty duty).trans (acquainted.unknown before)
    | agrees before _ _ _ _ device _ _ => exact device.trans (acquainted.unknown before)
    | fails _ phase _ _ _ _ _ | stores _ phase _ _ _ _ _ _ _ | resumes _ phase _ _ _ _ _ _
    | closes _ phase _ _ _ _ =>
      rw [phase] at hp
      cases hp
  · cases h with
    | goesOn phase _ duty _ _ _ _ =>
      rw [device_of_duty duty]
      exact acquainted.known (phase.symm.trans hp)
    | stores _ _ _ _ _ known _ _ _ =>
      rw [known]
      exact Option.some_ne_none _
    | resumes _ _ returning _ _ _ _ _ =>
      rw [acquainted.association] at returning
      cases returning
    | shows _ phase _ _ _ _ _ | agrees _ phase _ _ _ _ _ _ | fails _ phase _ _ _ _ _
    | closes _ phase _ _ _ _ =>
      rw [phase] at hp
      cases hp

/-- So it is with every move, since others have no say in what a channel knows. -/
theorem acquainted_move (m : Move σ τ) (sound : c.Sound) (acquainted : c.Acquainted) :
    (c.move S m).2.Acquainted := by
  obtain ⟨t, ht, hd, _⟩ := upshot_move (S := S) m sound
  rw [← hd]
  refine ht.acquainted acquainted ?_
  show t.toChannel.kind.returning = none
  rw [hd, returning_move m sound]
  exact acquainted.association

/-- So it is along every run. -/
theorem acquainted_run (ms : List (Move σ τ)) (sound : c.Sound) (acquainted : c.Acquainted) :
    (c.run S ms).2.Acquainted := by
  have h : (c.run S ms).2.Sound ∧ (c.run S ms).2.Acquainted :=
    run_induction (P := fun _ d => d.Sound ∧ d.Acquainted) ⟨sound, acquainted⟩
      fun _ _ m _ hd => ⟨sound_move m hd.1, acquainted_move m hd.1 hd.2⟩
  exact h.2

/-- The device is known from the moment on at which the association is established, and never before. -/
theorem device_ne_none_iff (ms : List (Move σ τ)) (sound : c.Sound) (acquainted : c.Acquainted)
    (new : c.phase = .handshaking) :
    (c.run S ms).2.device ≠ none ↔ ∃ ms', ms' <+: ms ∧ (c.run S ms').2.phase = .established := by
  induction ms using List.reverseRecOn with
  | nil =>
    refine ⟨fun h => absurd (acquainted.unknown new) h, ?_⟩
    rintro ⟨ms', hms', hphase⟩
    obtain rfl := List.prefix_nil.1 hms'
    rw [run_nil, new] at hphase
    cases hphase
  | append_singleton ms m ih =>
    have hsound := sound_run (S := S) ms sound
    have hacquainted := acquainted_run (S := S) ms sound acquainted
    obtain ⟨t, ht, hd, _⟩ := upshot_move (S := S) m hsound
    have hlast : (c.run S (ms ++ [m])).2 = t.toChannel := (run_concat S ms m c).trans hd.symm
    constructor
    · intro hknown
      rw [hlast] at hknown
      rcases ht.device_eq_or hacquainted with hsame | ⟨_, _, hphase⟩
      · obtain ⟨ms', hms', hphase⟩ := ih.1 (hsame ▸ hknown)
        exact ⟨ms', hms'.trans (List.prefix_append ms [m]), hphase⟩
      · exact ⟨ms ++ [m], List.prefix_rfl, by rw [hlast]; exact hphase⟩
    · rintro ⟨ms', hms', hphase⟩
      rcases List.prefix_concat_iff.1 hms' with rfl | hms'
      · exact (acquainted_run (ms ++ [m]) sound acquainted).known hphase
      · rw [hlast]
        rcases ht.device_eq_or hacquainted with hsame | ⟨_, hknown, _⟩
        · exact hsame ▸ ih.2 ⟨ms', hms', hphase⟩
        · exact hknown

/-- At every moment of every run of a new channel its state makes sense and develops from what it was;
and the device of an association is known exactly if the channel has been established. -/
theorem consistent_and_develops {c₀ : Channel ε σ τ} (new : New S c₀) (ms ms' : List (Move σ τ)) :
    Consistent (c₀.run S ms).2 ∧ Develops (c₀.run S ms).2 (c₀.run S (ms ++ ms')).2 ∧
      ((c₀.run S ms).2.kind.returning = none → ((c₀.run S ms).2.device ≠ none ↔
        ∃ ms₁, ms₁ <+: ms ∧ (c₀.run S ms₁).2.phase = .established)) := by
  have hsound := sound_run (S := S) ms new.sound
  refine ⟨hsound.consistent, ?_, fun hkind => ?_⟩
  · rw [run_append]
    exact hsound.develops ms'
  · have hassociation : c₀.kind.returning = none := by
      rw [← returning_run (S := S) ms new.sound]
      exact hkind
    refine device_ne_none_iff ms new.sound ⟨hassociation, fun _ => new.device hassociation, ?_⟩
      new.phase
    intro hphase
    rw [new.phase] at hphase
    cases hphase

/-- What happens to an association until it is established. -/
def untilEstablished : List (Move Bench.Vault Bench.Outlet) :=
  untilAccepted ++ [.call (.arrived ⟨none, false, lastFrame⟩ .handshake)]

/-- An association is accepted, established and closed: it gets a key, which is dropped in the end, and a
device, which is not. -/
theorem develops_until_closed :
    ((Bench.associating .empty).run Bench.setting untilEstablished).2.phase = .established ∧
    ((Bench.associating .empty).run Bench.setting untilEstablished).2.key = some Bench.agreedKey ∧
    ((Bench.associating .empty).run Bench.setting (untilEstablished ++ [.call .close])).2.key =
      none ∧
    Consistent ((Bench.associating .empty).run Bench.setting untilEstablished).2 ∧
    Develops ((Bench.associating .empty).run Bench.setting untilEstablished).2
      ((Bench.associating .empty).run Bench.setting (untilEstablished ++ [.call .close])).2 ∧
    ((Bench.associating .empty).run Bench.setting untilEstablished).2.device ≠ none := by
  have hphase : ((Bench.associating .empty).run Bench.setting untilEstablished).2.phase =
      .established := by
    decide +kernel
  have hnew : New Bench.setting (Bench.associating .empty) := .association (.visual ..)
  have h := consistent_and_develops hnew untilEstablished [.call .close]
  refine ⟨hphase, by decide +kernel, by decide +kernel, h.1, h.2.1, (h.2.2 ?_).2 ?_⟩
  · decide +kernel
  · exact ⟨untilEstablished, List.prefix_rfl, hphase⟩

end DevicePairing.Channel
