import DevicePairing.Channel.Session
import DevicePairing.Proofs.Channel.Run

/-!
# A session is a run of its channel

Observers may use a channel while they are being told of something, and what they ask for may have others
told of something in turn. For the channel all this is one move after another: however requests nest,
what a session does to its channel is a run of it, and the acts in its log are those of the run, in order
(`Session.advances_perform`). So what holds of every run of a channel holds of every session.
-/

namespace DevicePairing.Session

variable {ε σ τ α : Type} {S : Setting ε σ τ}

/-- The acts of the channel that a log tells of, in order. -/
def Entry.acts : List (Entry σ τ α) → List Act
  | [] => []
  | .act a :: es => a :: acts es
  | _ :: es => acts es

/-- The acts in a log come one part of it after another. -/
@[simp] theorem Entry.acts_append (es es' : List (Entry σ τ α)) :
    Entry.acts (es ++ es') = Entry.acts es ++ Entry.acts es' := by
  induction es with
  | nil => rfl
  | cons e es ih =>
    cases e with
    | act a => exact congrArg (a :: ·) ih
    | _ => exact ih

/-- A log of nothing but acts has these acts. -/
@[simp] theorem Entry.acts_map (as : List Act) :
    Entry.acts (as.map .act : List (Entry σ τ α)) = as := by
  induction as with
  | nil => rfl
  | cons a as ih => exact congrArg (a :: ·) ih

variable (S) in
/-- Between two moments of a session its channel makes a run, and the log tells what is done in it. -/
def Advances (s s' : Session ε σ τ α) : Prop :=
  ∃ ms, s'.channel = (s.channel.run S ms).2 ∧
    Entry.acts s'.log = Entry.acts s.log ++ Outcome.actsOf (s.channel.run S ms).1

variable {s s' s'' : Session ε σ τ α}

/-- A session whose channel is as it was has made a run without moves. -/
theorem Advances.of_eq (channel : s'.channel = s.channel)
    (acts : Entry.acts s'.log = Entry.acts s.log) : Advances S s s' :=
  ⟨[], channel, by rw [acts, Channel.run_nil, Outcome.actsOf_nil, List.append_nil]⟩

/-- So has one in which nothing happens. -/
theorem Advances.refl (s : Session ε σ τ α) : Advances S s s := .of_eq rfl rfl

/-- Two runs, one after the other, are a run. -/
theorem Advances.trans (h : Advances S s s') (h' : Advances S s' s'') : Advances S s s'' := by
  obtain ⟨ms, hchannel, hacts⟩ := h
  obtain ⟨ms', hchannel', hacts'⟩ := h'
  refine ⟨ms ++ ms', ?_, ?_⟩
  · rw [Channel.run_append, hchannel', hchannel]
  · rw [Channel.run_append, hacts', hacts, hchannel, Outcome.actsOf_append, List.append_assoc]

/-- A single move. -/
theorem Advances.of_move (m : Channel.Move σ τ) (channel : s'.channel = (s.channel.move S m).2)
    (acts : Entry.acts s'.log = Entry.acts s.log ++ (s.channel.move S m).1.acts) : Advances S s s' := by
  refine ⟨[m], channel, ?_⟩
  rw [acts, Channel.run_cons, Channel.run_nil, Outcome.actsOf_singleton]

/-- A single move with which the channel has nothing to do. -/
theorem Advances.of_idle (m : Channel.Move σ τ) (channel : s'.channel = (s.channel.move S m).2)
    (idle : (s.channel.move S m).1 = .idle) (log : s'.log = s.log) : Advances S s s' := by
  refine .of_move m channel ?_
  rw [idle, log]
  exact (List.append_nil _).symm

/-- What others did is noted. -/
theorem Advances.note {es : List (Entry σ τ α)} (h : Entry.acts es = []) (s : Session ε σ τ α) :
    Advances S s (s.note es) := by
  refine .of_eq rfl ?_
  show Entry.acts (s.log ++ es) = _
  rw [Entry.acts_append, h, List.append_nil]

/-! ## What requests give rise to -/

section Handler

variable {handle : Handler ε σ τ α} {B : Behaviour ε σ τ α}
  (advances : ∀ r s, Advances S s (handle r s).2)

include advances

/-- Requests that are made one after another make a run, if each of them does. -/
theorem advances_react (rs : List (Request σ τ α)) (s : Session ε σ τ α) :
    Advances S s (react handle rs s) := by
  induction rs generalizing s with
  | nil => exact .refl s
  | cons r rs ih =>
    have hreacted : Advances S (handle r s).2 ((handle r s).2.note [.reacted r (handle r s).1]) :=
      .note rfl _
    exact (advances r s).trans (hreacted.trans (ih _))

/-- To tell observers of an event makes a run of what they ask for, one after another. -/
theorem advances_tell (e : Event) (ids : List CallbackId) (s : Session ε σ τ α) :
    Advances S s (tell handle B e ids s) := by
  induction ids generalizing s with
  | nil => exact .refl s
  | cons id ids ih =>
    have htold : Advances S s (s.note [.told id e]) := .note rfl s
    exact htold.trans ((advances_react advances _ _).trans (ih _))

/-- So do several events. -/
theorem advances_announce (es : List Event) (s : Session ε σ τ α) :
    Advances S s (announce handle B es s) := by
  induction es generalizing s with
  | nil => exact .refl s
  | cons e es ih =>
    cases e with
    | showCode listener code =>
      have hshown : Advances S s (s.note [.shown listener code]) := .note rfl s
      exact hshown.trans ((advances_react advances _ _).trans (ih _))
    | _ => exact (advances_tell advances _ _ s).trans (ih _)

/-- So does all that the stream did. -/
theorem advances_pass (acts : List StreamAct) (s : Session ε σ τ α) :
    Advances S s (pass handle acts s) := by
  induction acts generalizing s with
  | nil => exact .refl s
  | cons a acts ih =>
    cases a with
    | handed frame answer =>
      have hhanded : Advances S s (s.note [.stream (.handed frame answer)]) := .note rfl s
      exact hhanded.trans (ih _)
    | delivered m op => exact (advances _ s).trans (ih _)
    | reported e => exact (advances _ s).trans (ih _)

/-- One request, given that what it gives rise to is dealt with by runs. -/
theorem advances_step (r : Request σ τ α) (s : Session ε σ τ α) :
    Advances S s (step handle B S r s).2 := by
  cases r with
  | register id => exact .of_idle (.register id) rfl rfl rfl
  | unregister id => exact .of_idle (.unregister id) rfl rfl rfl
  | listen listener => exact .of_idle (.listen listener) rfl rfl rfl
  | describe => exact .refl s
  | release => exact .of_eq rfl rfl
  | call i =>
    unfold step
    dsimp only
    split
    · have hcall : Advances S s ({ s with channel := (s.channel.call S i).2, busy := true }.note
          ((s.channel.call S i).1.acts.map .act)) := by
        refine .of_move (.call i) rfl ?_
        show Entry.acts (s.log ++ _) = _
        rw [Entry.acts_append, Entry.acts_map]
        rfl
      have htold := advances_announce (B := B) advances (s.channel.call S i).1.events
        ({ s with channel := (s.channel.call S i).2, busy := true }.note
          ((s.channel.call S i).1.acts.map .act))
      exact hcall.trans (htold.trans (.of_eq rfl rfl))
    · exact .refl s
  | onStream name change =>
    have hchanged : Advances S s { s with channel := { s.channel with
        stream := (change s.channel.stream).2.2 } } :=
      .of_idle (.onStream fun t => (change t).2.2) rfl rfl rfl
    exact hchanged.trans (advances_pass advances _ _)
  | onStore name change => exact .of_idle (.onStore fun t tape => (change t tape).2) rfl rfl rfl

end Handler

/-- Whatever is asked of a session, however those who are told of something behave, and however deep
their requests nest: the channel makes a run, and the log tells of it. -/
theorem advances_perform (B : Behaviour ε σ τ α) (depth : Nat) (r : Request σ τ α)
    (s : Session ε σ τ α) : Advances S s (perform B S depth r s).2 := by
  induction depth generalizing r s with
  | zero => exact .refl s
  | succ depth ih => exact advances_step ih r s

end DevicePairing.Session
