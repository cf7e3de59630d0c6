import DevicePairing.Bench
import DevicePairing.Proofs.Channel.Discipline
import DevicePairing.Proofs.Channel.Session
import DevicePairing.Proofs.Channel.Teardown

/-!
# Silence after closing

A call to a closed channel tells nobody of anything. But the events of a call are told after the call, and each
to the observers that were there when its turn came. So whoever is told of an event and closes the channel on
the spot does not stop what is on its way: those behind him in line are still told of the event, and the events
behind it are told to whoever registers in the meantime.

`Session.Discreet` says that this does not happen: who closes the channel when he is told of something is the
last in line, and nobody is there any more when the turn of a later event comes. `Session.silent_iff_discreet`
says that a session is silent after closing exactly if all that happens in it is discreet, however its observers
behave; codes are never shown after closing, in any session.

The proof follows requests and what they give rise to. `Session.Continues` relates a session to a later moment of
it, with a condition on what happens in between, and composes along `trans`. `Session.Tracked` is what it carries:
the channel is closed if and only if the log tells of it.
-/

namespace DevicePairing

variable {ε σ τ α : Type} {S : Setting ε σ τ}

/-! ## Calls around the end of a channel -/

namespace Channel

variable {c : Channel ε σ τ} {i : Call}

/-- A call to a closed channel leaves it closed and tells nobody. -/
theorem call_of_closed (sound : c.Sound) (closed : c.phase = .closed) (i : Call) :
    (c.call S i).2.phase = .closed ∧ (c.call S i).1.events = [] := by
  have hended {p : Phase} (before : c.phase = p) (other : p ≠ .closed) (P : Prop) : P :=
    absurd (before.symm.trans closed) other
  rw [call_channel, call_events]
  cases upshot_serve (S := S) i sound with
  | goesOn phase _ _ _ _ _ silent => exact ⟨phase.trans closed, silent closed⟩
  | shows before | agrees before | fails before | stores before | resumes before =>
    exact hended before (by decide) _
  | closes before => exact absurd closed before

/-- A call that leaves the channel closed tells nobody of anything. -/
theorem events_of_closed (sound : c.Sound) (closed : (c.call S i).2.phase = .closed) :
    (c.call S i).1.events = [] := by
  rw [call_channel] at closed
  rw [call_events]
  have hended {p : Phase} (after : (c.serve S i).phase = p) (other : p ≠ .closed) (P : Prop) : P :=
    absurd (after.symm.trans closed) other
  cases upshot_serve (S := S) i sound with
  | goesOn phase _ _ _ _ _ silent => exact silent (phase.symm.trans closed)
  | shows _ after | agrees _ after | fails _ after | stores _ after | resumes _ after =>
    exact hended after (by simp) _
  | closes _ _ _ _ _ events => exact events

/-- A code is the only thing a call tells of, and the channel is still handshaking then. -/
theorem code_alone (sound : c.Sound) {listener : ListenerId} {code : String}
    (h : .showCode listener code ∈ (c.call S i).1.events) :
    (c.call S i).1.events = [.showCode listener code] ∧ (c.call S i).2.phase = .handshaking := by
  rw [call_events] at h ⊢
  rw [call_channel]
  cases upshot_serve (S := S) i sound with
  | goesOn _ _ _ _ traffic => exact absurd (traffic _ h) Bool.false_ne_true
  | shows _ phase _ _ _ _ events =>
    rw [events] at h ⊢
    rw [List.mem_singleton.1 h]
    exact ⟨rfl, phase⟩
  | agrees _ _ _ _ _ _ _ events | closes _ _ _ _ _ events =>
    rw [events] at h
    cases h
  | fails _ _ _ _ _ refusals events =>
    rw [events, List.mem_append, List.mem_singleton] at h
    rcases h with h | h
    · exact absurd (refusals _ h) Bool.false_ne_true
    · cases h
  | stores _ _ _ _ _ _ _ events _ | resumes _ _ _ _ _ _ _ events =>
    rw [events] at h
    simp at h

/-- Who gives up does not close a channel. -/
theorem phase_fail_ne_closed {t : Turn ε σ τ} (alive : t.phase.isTerminal = false) (code : ErrorCode) :
    (t.fail code).phase ≠ .closed := by
  intro closed
  by_cases hphase : t.phase = .handshaking
  · rw [Turn.fail_of_handshaking hphase] at closed
    cases closed
  · rw [Turn.fail_of_over hphase] at closed
    rw [closed] at alive
    cases alive

/-- No step of a handshake closes a channel, whether it succeeds or is given up. -/
theorem phase_attempt_ne_closed {touches : List Touch} {w : Work ε σ τ Unit}
    (alive : c.phase.isTerminal = false) (footprint : Work.Footprint S touches w) :
    (c.turn.attempt w).phase ≠ .closed := by
  have hleft : (w c.turn).2.phase.isTerminal = false := (footprint.isTerminal_eq c.turn).trans alive
  rw [Turn.attempt_eq_settle]
  generalize (w c.turn).1 = r, (w c.turn).2 = t at *
  cases r with
  | ok _ =>
    intro closed
    rw [show t.phase = .closed from closed] at hleft
    cases hleft
  | error code => exact phase_fail_ne_closed hleft code

/-- Only a request to close it closes a channel. -/
theorem closed_of_call (closed : (c.call S i).2.phase = .closed) : c.phase = .closed ∨ i = .close := by
  rw [call_channel] at closed
  have hdispatched := dispatched_serve (S := S) i c
  have halive : c.phase = .handshaking → c.phase.isTerminal = false := by
    intro h
    rw [h]
    rfl
  generalize c.serve S i = t at *
  cases hdispatched with
  | idle | told _ _ _ => exact .inl closed
  | sent prepares _ _ _ _ => exact .inl (prepares.phase.symm.trans closed)
  | unreadable phase | premature phase => exact absurd closed (phase_fail_ne_closed (halive phase) _)
  | frame phase _ step =>
    exact absurd closed (phase_attempt_ne_closed (halive phase) (footprint_setsOff step))
  | accepted phase _ _ =>
    exact absurd closed
      (phase_attempt_ne_closed (halive phase) (Association.asksFirst_accept (S := S)).footprint)
  | closed _ => exact .inr rfl

end Channel

namespace Session

/-! ## What comes after closing -/

/-- Whether an entry says that a request to close the channel was answered. -/
def Entry.closes : Entry σ τ α → Bool
  | .reacted (.call .close) (.called _) => true
  | _ => false

/-- Whether an entry says that an observer was told of an event. -/
def Entry.tells : Entry σ τ α → Bool
  | .told _ _ => true
  | _ => false

/-- Whether an entry says that a listener was shown a code. -/
def Entry.shows : Entry σ τ α → Bool
  | .shown _ _ => true
  | _ => false

/-- No entry of a kind comes after a request to close the channel was answered. -/
def Ceases (p : Entry σ τ α → Bool) (log : List (Entry σ τ α)) : Prop :=
  log.Pairwise fun e e' => e.closes = true → p e' = false

/-- Once a request to close the channel was answered, nobody is told of anything and no code is shown. -/
def Silent (log : List (Entry σ τ α)) : Prop := Ceases Entry.tells log ∧ Ceases Entry.shows log

variable {p : Entry σ τ α → Bool} {log es : List (Entry σ τ α)} {e : Entry σ τ α}

/-- What is not of the kind may be added. -/
theorem ceases_append (h : ∀ e ∈ es, p e = false) : Ceases p (log ++ es) ↔ Ceases p log := by
  unfold Ceases
  rw [List.pairwise_append]
  refine ⟨And.left, fun hlog => ⟨hlog, ?_, fun _ _ e he _ => h e he⟩⟩
  exact List.pairwise_of_forall_mem_list fun _ _ e he _ => h e he

/-- What is of the kind may be added if no request to close was answered. -/
theorem ceases_concat (h : p e = true) :
    Ceases p (log ++ [e]) ↔ Ceases p log ∧ ¬ ∃ e' ∈ log, e'.closes = true := by
  unfold Ceases
  rw [List.pairwise_append]
  refine and_congr_right fun _ => ⟨fun ⟨_, hafter⟩ ⟨e', he', hcloses⟩ => ?_, fun hnone => ?_⟩
  · have hlate := hafter e' he' e List.mem_cons_self hcloses
    rw [h] at hlate
    cases hlate
  · exact ⟨List.pairwise_singleton _ _, fun e' he' _ _ hcloses => absurd ⟨e', he', hcloses⟩ hnone⟩

/-- Whether a request to close was answered does not depend on other entries. -/
theorem closes_append (h : ∀ e ∈ es, e.closes = false) :
    (∃ e ∈ log ++ es, e.closes = true) ↔ ∃ e ∈ log, e.closes = true := by
  refine ⟨fun ⟨e, he, hcloses⟩ => ⟨e, ?_, hcloses⟩, fun ⟨e, he, hcloses⟩ =>
    ⟨e, List.mem_append_left _ he, hcloses⟩⟩
  refine (List.mem_append.1 he).resolve_right fun hnew => ?_
  rw [h e hnew] at hcloses
  cases hcloses

/-- Entries tell nobody of anything, and none of them says that the channel was closed. -/
def Mute (es : List (Entry σ τ α)) : Prop :=
  ∀ e ∈ es, e.closes = false ∧ e.tells = false ∧ e.shows = false

/-- Acts tell nobody of anything. -/
theorem mute_acts (acts : List Act) : Mute (acts.map .act : List (Entry σ τ α)) :=
  List.forall_mem_map.2 fun _ _ => ⟨rfl, rfl, rfl⟩

/-- The answer to any other request than to close tells nobody of anything. -/
theorem mute_reacted {r : Request σ τ α} (other : r ≠ .call .close) (answer : Answer α) :
    Mute [.reacted r answer] := by
  refine List.forall_mem_singleton.2 ⟨?_, rfl, rfl⟩
  unfold Entry.closes
  split
  · next h =>
    cases h
    exact absurd rfl other
  · rfl

/-! ## Discretion -/

section Discreet

variable (handle : Handler ε σ τ α) (B : Behaviour ε σ τ α)
  (discreet : Request σ τ α → Session ε σ τ α → Prop)

/-- The requests of somebody who was told, and all they give rise to, are discreet. -/
def DiscreetReact : List (Request σ τ α) → Session ε σ τ α → Prop
  | [], _ => True
  | r :: rs, s => discreet r s ∧ DiscreetReact rs ((handle r s).2.note [.reacted r (handle r s).1])

/-- The observers who are told of an event are discreet: who leaves the channel closed is the last of them. -/
def DiscreetTell (e : Event) : List CallbackId → Session ε σ τ α → Prop
  | [], _ => True
  | id :: ids, s =>
    let told := s.note [.told id e]
    let after := react handle (B.onEvent told id e) told
    DiscreetReact handle discreet (B.onEvent told id e) told ∧
      (after.channel.phase = .closed → ids = []) ∧ DiscreetTell e ids after

/-- Those who are told of the events of a call are discreet: when an event was told and leaves the channel
closed, it is the last one, or nobody is there any more. -/
def DiscreetAnnounce : List Event → Session ε σ τ α → Prop
  | [], _ => True
  | .showCode listener code :: es, s =>
    let shown := s.note [.shown listener code]
    DiscreetReact handle discreet (B.onCode shown listener code) shown ∧
      DiscreetAnnounce es (react handle (B.onCode shown listener code) shown)
  | e :: es, s =>
    let after := tell handle B e s.channel.callbacks.members s
    DiscreetTell handle B discreet e s.channel.callbacks.members s ∧
      (after.channel.phase = .closed → es = [] ∨ after.channel.callbacks.members = []) ∧
      DiscreetAnnounce es after

/-- The calls that come of what the stream did are discreet. -/
def DiscreetPass : List StreamAct → Session ε σ τ α → Prop
  | [], _ => True
  | .handed frame answer :: acts, s => DiscreetPass acts (s.note [.stream (.handed frame answer)])
  | .delivered m op :: acts, s =>
    discreet (.call (.arrived m op)) s ∧ DiscreetPass acts (handle (.call (.arrived m op)) s).2
  | .reported e :: acts, s =>
    discreet (.call (.streamFailed e)) s ∧ DiscreetPass acts (handle (.call (.streamFailed e)) s).2

/-- A request is discreet, given which of those that it gives rise to are. -/
def DiscreetStep (S : Setting ε σ τ) (r : Request σ τ α) (s : Session ε σ τ α) : Prop :=
  match r with
  | .call i =>
    s.inReach = true → DiscreetAnnounce handle B discreet (s.channel.call S i).1.events
      ({ s with channel := (s.channel.call S i).2, busy := true }.note
        ((s.channel.call S i).1.acts.map .act))
  | .onStream _ change =>
    DiscreetPass handle discreet (change s.channel.stream).2.1
      { s with channel := { s.channel with stream := (change s.channel.stream).2.2 } }
  | _ => True

end Discreet

/-- A request and all that it gives rise to, down to the given depth, is discreet. -/
def Discreet (B : Behaviour ε σ τ α) (S : Setting ε σ τ) :
    (depth : Nat) → Request σ τ α → Session ε σ τ α → Prop
  | 0, _, _ => True
  | depth + 1, r, s => DiscreetStep (perform B S depth) B (Discreet B S depth) S r s

/-! ## What the log tells of the channel -/

/-- The log tells whether the channel is closed, as long as the channel is within reach. -/
structure Tracked (s : Session ε σ τ α) : Prop where
  /-- The channel is sound. -/
  sound : s.channel.Sound
  /-- If it is closed, a request to close it was answered. -/
  noted : s.channel.phase = .closed → ∃ e ∈ s.log, e.closes = true
  /-- If such a request was answered, it is closed or out of reach. -/
  ended : (∃ e ∈ s.log, e.closes = true) → s.channel.phase = .closed ∨ s.inReach = false

variable {s s' s'' : Session ε σ τ α}

/-- As long as the channel is within reach, it is closed exactly if the log says so. -/
theorem Tracked.closes_iff (h : s.Tracked) (reached : s.inReach = true) :
    (∃ e ∈ s.log, e.closes = true) ↔ s.channel.phase = .closed := by
  refine ⟨fun hcloses => (h.ended hcloses).resolve_right fun hout => ?_, h.noted⟩
  rw [reached] at hout
  cases hout

/-- A channel that is being dealt with is within reach. -/
theorem inReach_of_busy (busy : s.busy = true) : s.inReach = true := by
  unfold inReach
  rw [busy, Bool.or_true]

/-- The log goes on with entries that say nothing of it, and the channel is as far as it was. -/
theorem Tracked.of_log (h : s.Tracked) (log : s'.log = s.log ++ es) (other : ∀ e ∈ es, e.closes = false)
    (sound : s'.channel.Sound) (phase : s'.channel.phase = s.channel.phase)
    (reach : s.inReach = false → s'.inReach = false) : s'.Tracked := by
  have hsame : (∃ e ∈ s'.log, e.closes = true) ↔ ∃ e ∈ s.log, e.closes = true := by
    rw [log]
    exact closes_append other
  refine ⟨sound, fun closed => hsame.2 (h.noted (phase ▸ closed)), fun hcloses => ?_⟩
  exact (h.ended (hsame.1 hcloses)).imp phase.trans reach

/-- Entries that do not tell of closing leave the log as telling as it was. -/
theorem Tracked.note (h : s.Tracked) (other : ∀ e ∈ es, e.closes = false) : (s.note es).Tracked :=
  h.of_log rfl other h.sound rfl id

/-- The entries that were added last may be passed over. -/
theorem Tracked.of_note (h : (s.note es).Tracked) (other : ∀ e ∈ es, e.closes = false) : s.Tracked where
  sound := h.sound
  noted closed := (closes_append other).1 (h.noted closed)
  ended hcloses := h.ended ((closes_append other).2 hcloses)

/-- A session goes on from one moment to another, and what observers are told of meanwhile keeps to the silence
after closing if and only if a condition holds. -/
structure Continues (condition : Prop) (s s' : Session ε σ τ α) : Prop where
  /-- The log tells of the channel. -/
  tracked : s'.Tracked
  /-- Observers are told of nothing after closing if the condition holds. -/
  told : Ceases Entry.tells s'.log ↔ Ceases Entry.tells s.log ∧ condition
  /-- Listeners are shown no code after closing. -/
  shown : Ceases Entry.shows s.log → Ceases Entry.shows s'.log
  /-- The same calls are being dealt with. -/
  busy : s'.busy = s.busy

variable {condition condition' : Prop}

/-- A session in which nothing happens goes on, and there is nothing to keep to. -/
theorem Continues.refl (tracked : s.Tracked) : Continues True s s where
  tracked := tracked
  told := (and_iff_left trivial).symm
  shown := id
  busy := rfl

/-- A session that goes on twice goes on, and keeps to the silence exactly if it does both times. -/
theorem Continues.trans (h : Continues condition s s') (h' : Continues condition' s' s'') :
    Continues (condition ∧ condition') s s'' where
  tracked := h'.tracked
  told := by rw [h'.told, h.told, and_assoc]
  shown := h'.shown ∘ h.shown
  busy := h'.busy.trans h.busy

/-- The condition may be put in other words. -/
theorem Continues.congr (h : Continues condition s s') (iff : condition ↔ condition') :
    Continues condition' s s' := propext iff ▸ h

/-- Entries are added that tell nobody of anything. -/
theorem Continues.of_log (tracked : s'.Tracked) (log : s'.log = s.log ++ es)
    (quiet : ∀ e ∈ es, e.tells = false ∧ e.shows = false) (busy : s'.busy = s.busy) :
    Continues True s s' where
  tracked := tracked
  told := by
    rw [log, ceases_append fun e he => (quiet e he).1]
    exact (and_iff_left trivial).symm
  shown h := by
    rw [log]
    exact (ceases_append fun e he => (quiet e he).2).2 h
  busy := busy

/-- Mute entries break no silence. -/
theorem Continues.note (h : Continues condition s s') (mute : Mute es) :
    Continues condition s (s'.note es) :=
  (h.trans (.of_log (h.tracked.note fun e he => (mute e he).1) rfl (fun e he => (mute e he).2) rfl)).congr
    (and_iff_left trivial)

/-- Mute entries that were added last may be passed over. -/
theorem Continues.of_note (h : Continues condition s (s'.note es)) (mute : Mute es) :
    Continues condition s s' where
  tracked := h.tracked.of_note fun e he => (mute e he).1
  told := (ceases_append fun e he => (mute e he).2.1).symm.trans h.told
  shown hceases := (ceases_append fun e he => (mute e he).2.2).1 (h.shown hceases)
  busy := h.busy

/-- An observer is told of something while the channel is within reach. -/
theorem continues_told (tracked : s.Tracked) (reached : s.inReach = true) (id : CallbackId) (e : Event) :
    Continues (s.channel.phase ≠ .closed) s (s.note [.told id e]) where
  tracked := tracked.note (List.forall_mem_singleton.2 rfl)
  told := by
    show Ceases Entry.tells (s.log ++ [.told id e]) ↔ _
    rw [ceases_concat rfl, tracked.closes_iff reached]
  shown := (ceases_append (List.forall_mem_singleton.2 rfl)).2
  busy := rfl

/-- A code is shown while the channel is not closed. -/
theorem continues_shown (tracked : s.Tracked) (reached : s.inReach = true)
    (opened : s.channel.phase ≠ .closed) (listener : ListenerId) (code : String) :
    Continues True s (s.note [.shown listener code]) where
  tracked := tracked.note (List.forall_mem_singleton.2 rfl)
  told := by
    show Ceases Entry.tells (s.log ++ [.shown listener code]) ↔ _
    rw [ceases_append (List.forall_mem_singleton.2 rfl)]
    exact (and_iff_left trivial).symm
  shown h := (ceases_concat rfl).2 ⟨h, fun hcloses => opened ((tracked.closes_iff reached).1 hcloses)⟩
  busy := rfl

/-! ## What requests give rise to -/

/-- A request to close the channel. -/
theorem continues_close {handle : Handler ε σ τ α} {B : Behaviour ε σ τ α}
    {discreet : Request σ τ α → Session ε σ τ α → Prop} (tracked : s.Tracked) :
    Continues (DiscreetStep handle B discreet S (.call .close) s) s
      ((step handle B S (.call .close) s).2.note
        [.reacted (.call .close) (step handle B S (.call .close) s).1]) := by
  have hclosed : (s.channel.call S .close).2.phase = .closed ∧ (s.channel.call S .close).1.events = [] :=
    Channel.close_turn s.channel
  let closing : Entry σ τ α := .reacted (.call .close) (.called (s.channel.call S .close).1.answer)
  have hquiet : ∀ e ∈ (s.channel.call S .close).1.acts.map .act ++ [closing],
      e.tells = false ∧ e.shows = false :=
    List.forall_mem_append.2 ⟨fun e he => (mute_acts _ e he).2, List.forall_mem_singleton.2 ⟨rfl, rfl⟩⟩
  unfold step DiscreetStep
  dsimp only
  by_cases reached : s.inReach = true
  · rw [if_pos reached, hclosed.2]
    have hclosing : closing ∈ s.log ++ (s.channel.call S .close).1.acts.map .act ++ [closing] :=
      List.mem_concat_self
    have htracked : ({ s with
        channel := (s.channel.call S .close).2
        log := s.log ++ (s.channel.call S .close).1.acts.map .act ++ [closing] } :
          Session ε σ τ α).Tracked :=
      ⟨Channel.sound_call (S := S) .close tracked.sound, fun _ => ⟨closing, hclosing, rfl⟩, fun _ => .inl hclosed.1⟩
    have h := Continues.of_log htracked (List.append_assoc _ _ _) hquiet rfl
    exact h.congr ⟨fun _ _ => trivial, fun _ => trivial⟩
  · rw [if_neg reached]
    have hout : s.inReach = false := by simpa using reached
    have htracked : (s.note [closing]).Tracked :=
      ⟨tracked.sound, fun closed => (tracked.noted closed).imp fun e he => ⟨List.mem_append_left _ he.1, he.2⟩,
        fun _ => .inr hout⟩
    have h := Continues.of_log htracked rfl (List.forall_mem_singleton.2 ⟨rfl, rfl⟩) rfl
    exact h.congr ⟨fun _ h => absurd h reached, fun _ => trivial⟩

section Handler

variable {handle : Handler ε σ τ α} {B : Behaviour ε σ τ α}
  {discreet : Request σ τ α → Session ε σ τ α → Prop}
  (continues : ∀ r s, s.Tracked →
    Continues (discreet r s) s ((handle r s).2.note [.reacted r (handle r s).1]))

include continues

/-- Requests, one after another, keep to the silence exactly if they are discreet. -/
theorem continues_react (rs : List (Request σ τ α)) (tracked : s.Tracked) :
    Continues (DiscreetReact handle discreet rs s) s (react handle rs s) := by
  induction rs generalizing s with
  | nil => exact .refl tracked
  | cons r rs ih =>
    have hfirst := continues r s tracked
    exact hfirst.trans (ih hfirst.tracked)

/-- Observers are told of an event. If any of them is, the channel may not be closed when the first one's turn
comes. -/
theorem continues_tell (e : Event) (ids : List CallbackId) (tracked : s.Tracked) (busy : s.busy = true) :
    Continues ((s.channel.phase = .closed → ids = []) ∧ DiscreetTell handle B discreet e ids s) s
      (tell handle B e ids s) := by
  induction ids generalizing s with
  | nil => exact (Continues.refl tracked).congr ⟨fun _ => ⟨fun _ => rfl, trivial⟩, fun _ => trivial⟩
  | cons id ids ih =>
    have htold := continues_told tracked (inReach_of_busy busy) id e
    have hreacted := htold.trans
      (continues_react continues (B.onEvent (s.note [.told id e]) id e) htold.tracked)
    have hrest := ih hreacted.tracked (hreacted.busy.trans busy)
    have hturn : s.channel.phase ≠ .closed ↔ (s.channel.phase = .closed → id :: ids = []) :=
      ⟨fun opened closed => absurd closed opened, fun none closed => List.cons_ne_nil id ids (none closed)⟩
    exact (hreacted.trans hrest).congr (and_assoc.trans (and_congr_left fun _ => hturn))

/-- Those concerned are told of the events of a call. A code is the only event of its call. -/
theorem continues_announce (es : List Event) (tracked : s.Tracked) (busy : s.busy = true)
    (alone : ∀ listener code, .showCode listener code ∈ es →
      es = [.showCode listener code] ∧ s.channel.phase ≠ .closed) :
    Continues ((s.channel.phase = .closed → es = [] ∨ s.channel.callbacks.members = []) ∧
      DiscreetAnnounce handle B discreet es s) s (announce handle B es s) := by
  induction es generalizing s with
  | nil => exact (Continues.refl tracked).congr ⟨fun _ => ⟨fun _ => .inl rfl, trivial⟩, fun _ => trivial⟩
  | cons e es ih =>
    by_cases hcode : ∃ listener code, e = .showCode listener code
    · obtain ⟨listener, code, rfl⟩ := hcode
      obtain ⟨honly, hopened⟩ := alone listener code List.mem_cons_self
      obtain rfl : es = [] := (List.cons.inj honly).2
      have hshown := continues_shown tracked (inReach_of_busy busy) hopened listener code
      have hreacted := hshown.trans
        (continues_react continues (B.onCode (s.note [.shown listener code]) listener code) hshown.tracked)
      refine hreacted.congr ?_
      unfold DiscreetAnnounce
      exact ⟨fun h => ⟨fun closed => absurd closed hopened, h.2, trivial⟩, fun h => ⟨trivial, h.2.1⟩⟩
    · have htold := continues_tell (B := B) continues e s.channel.callbacks.members tracked busy
      have hothers : ∀ listener code, .showCode listener code ∉ es := by
        intro listener code hmem
        have honly := (alone listener code (List.mem_cons_of_mem e hmem)).1
        rw [(List.cons.inj honly).2] at hmem
        cases hmem
      have hrest := ih htold.tracked (htold.busy.trans busy) fun listener code hmem =>
        absurd hmem (hothers listener code)
      have hturn : (s.channel.phase = .closed → s.channel.callbacks.members = []) ↔
          (s.channel.phase = .closed → e :: es = [] ∨ s.channel.callbacks.members = []) :=
        forall_congr' fun _ => (or_iff_right (List.cons_ne_nil e es)).symm
      have hall := (htold.trans hrest).congr (and_assoc.trans (and_congr_left fun _ => hturn))
      cases e with
      | showCode listener code => exact absurd ⟨listener, code, rfl⟩ hcode
      | _ => exact hall

/-- So does what comes of the acts of the stream. -/
theorem continues_pass (acts : List StreamAct) (tracked : s.Tracked) :
    Continues (DiscreetPass handle discreet acts s) s (pass handle acts s) := by
  have hcalled {s : Session ε σ τ α} {i : Call} (other : i ≠ .close) (tracked : s.Tracked) :
      Continues (discreet (.call i) s) s (handle (.call i) s).2 :=
    (continues (.call i) s tracked).of_note (mute_reacted (fun h => other (Request.call.inj h)) _)
  induction acts generalizing s with
  | nil => exact .refl tracked
  | cons a acts ih =>
    cases a with
    | handed frame answer =>
      have hmute : Mute [(.stream (.handed frame answer) : Entry σ τ α)] :=
        List.forall_mem_singleton.2 ⟨rfl, rfl, rfl⟩
      have hhanded := (Continues.refl tracked).note hmute
      exact (hhanded.trans (ih hhanded.tracked)).congr (and_iff_right trivial)
    | delivered m op =>
      have hfirst := hcalled (i := .arrived m op) nofun tracked
      exact hfirst.trans (ih hfirst.tracked)
    | reported e =>
      have hfirst := hcalled (i := .streamFailed e) nofun tracked
      exact hfirst.trans (ih hfirst.tracked)

/-- A call that is not a request to close the channel. -/
theorem continues_call {i : Call} (other : i ≠ .close) (tracked : s.Tracked) :
    Continues (DiscreetStep handle B discreet S (.call i) s) s (step handle B S (.call i) s).2 := by
  unfold step DiscreetStep
  dsimp only
  by_cases reached : s.inReach = true
  case neg =>
    rw [if_neg reached]
    exact (Continues.refl tracked).congr ⟨fun _ h => absurd h reached, fun _ => trivial⟩
  rw [if_pos reached]
  have hended := tracked.closes_iff reached
  have hmute : Mute ((s.channel.call S i).1.acts.map .act : List (Entry σ τ α)) := mute_acts _
  let called : Session ε σ τ α :=
    { s with channel := (s.channel.call S i).2, busy := true }.note ((s.channel.call S i).1.acts.map .act)
  have hcloses : (∃ e ∈ called.log, e.closes = true) ↔ s.channel.phase = .closed :=
    (closes_append fun e he => (hmute e he).1).trans hended
  have htracked : called.Tracked := by
    refine ⟨Channel.sound_call i tracked.sound, fun closed => hcloses.2 ?_, fun h => .inl ?_⟩
    · exact (Channel.closed_of_call closed).resolve_right other
    · exact (Channel.call_of_closed tracked.sound (hcloses.1 h) i).1
  have hannounced := continues_announce (B := B) continues (s.channel.call S i).1.events htracked rfl
    fun listener code hmem => by
      obtain ⟨honly, hphase⟩ := Channel.code_alone tracked.sound hmem
      exact ⟨honly, fun closed => absurd (hphase.symm.trans closed) (by decide)⟩
  have hcondition : ((called.channel.phase = .closed → (s.channel.call S i).1.events = [] ∨
      called.channel.callbacks.members = []) ∧
        DiscreetAnnounce handle B discreet (s.channel.call S i).1.events called) ↔
      (s.inReach = true → DiscreetAnnounce handle B discreet (s.channel.call S i).1.events called) :=
    ⟨fun h _ => h.2, fun h => ⟨fun closed => .inl (Channel.events_of_closed tracked.sound closed), h reached⟩⟩
  have htold := hannounced.congr hcondition
  refine ⟨⟨htold.tracked.sound, htold.tracked.noted, fun h => .inl ?_⟩, ?_, fun h => htold.shown ?_, rfl⟩
  · exact (htold.tracked.closes_iff (inReach_of_busy htold.busy)).1 h
  · exact htold.told.trans (and_congr_left fun _ => ceases_append fun e he => (hmute e he).2.1)
  · exact (ceases_append fun e he => (hmute e he).2.2).2 h

/-- A request that is not to close the channel. -/
theorem continues_other {r : Request σ τ α} (other : r ≠ .call .close) (tracked : s.Tracked) :
    Continues (DiscreetStep handle B discreet S r s) s (step handle B S r s).2 := by
  have hidle {s' : Session ε σ τ α} (log : s'.log = s.log) (busy : s'.busy = s.busy)
      (sound : s'.channel.Sound) (phase : s'.channel.phase = s.channel.phase)
      (reach : s.inReach = false → s'.inReach = false) : Continues True s s' :=
    .of_log (tracked.of_log (log.trans (List.append_nil _).symm) (List.forall_mem_nil _) sound phase reach)
      (log.trans (List.append_nil _).symm) (List.forall_mem_nil _) busy
  have hsound (m : Channel.Move σ τ) := Channel.sound_move (S := S) m tracked.sound
  cases r with
  | call i => exact continues_call continues (fun h => other (congrArg Request.call h)) tracked
  | register observer => exact hidle rfl rfl (hsound (.register observer)) rfl id
  | unregister observer => exact hidle rfl rfl (hsound (.unregister observer)) rfl id
  | listen listener => exact hidle rfl rfl (hsound (.listen listener)) rfl id
  | describe => exact .refl tracked
  | release => exact hidle rfl rfl tracked.sound rfl fun hout => (Bool.or_eq_false_iff.1 hout).2
  | onStream name change =>
    have hchanged : Continues True s { s with channel := { s.channel with
        stream := (change s.channel.stream).2.2 } } :=
      hidle rfl rfl (hsound (.onStream fun t => (change t).2.2)) rfl id
    have hpassed := continues_pass continues (change s.channel.stream).2.1 hchanged.tracked
    exact (hchanged.trans hpassed).congr (and_iff_right trivial)
  | onStore name change =>
    exact hidle rfl rfl (hsound (.onStore fun t tape => (change t tape).2)) rfl id

/-- One request with its answer, given what it gives rise to. -/
theorem continues_step (r : Request σ τ α) (s : Session ε σ τ α) (tracked : s.Tracked) :
    Continues (DiscreetStep handle B discreet S r s) s
      ((step handle B S r s).2.note [.reacted r (step handle B S r s).1]) := by
  by_cases hclose : r = .call .close
  · rw [hclose]
    exact continues_close tracked
  · exact (continues_other continues hclose tracked).note (mute_reacted hclose _)

end Handler

/-- Whatever is asked of a session, however those who are told of something behave, and however deep their
requests nest. -/
theorem continues_perform (B : Behaviour ε σ τ α) (depth : Nat) (r : Request σ τ α) (s : Session ε σ τ α)
    (tracked : s.Tracked) : Continues (Discreet B S depth r s) s
      ((perform B S depth r s).2.note [.reacted r (perform B S depth r s).1]) := by
  induction depth generalizing r s with
  | zero =>
    have hmute : Mute [(.reacted r .unanswered : Entry σ τ α)] := by
      refine List.forall_mem_singleton.2 ⟨?_, rfl, rfl⟩
      rcases r with _ | _ | _ | i | _ | _ | _ | _
      case call => cases i <;> rfl
      all_goals rfl
    exact (Continues.refl tracked).note hmute
  | succ depth ih => exact continues_step ih r s tracked

/-- Whoever observes a new channel and however they behave, whatever is asked of it and however deep requests
nest: once a request to close the channel was answered nobody is told of anything, exactly if all that happens
is discreet. Codes are never shown after that. -/
theorem silent_iff_discreet {made : List Act × Channel ε σ τ} (new : Channel.New S made.2)
    (B : Behaviour ε σ τ α) (depth : Nat) (rs : List (Request σ τ α)) :
    (Silent (react (perform B S depth) rs (ofChannel made)).log ↔
      DiscreetReact (perform B S depth) (Discreet B S depth) rs (ofChannel made)) ∧
    Ceases Entry.shows (react (perform B S depth) rs (ofChannel made)).log := by
  have hmute : Mute (made.1.map .act : List (Entry σ τ α)) := mute_acts _
  have hstart {p : Entry σ τ α → Bool} (h : ∀ e ∈ made.1.map (.act : Act → Entry σ τ α), p e = false) :
      Ceases p (made.1.map .act) :=
    List.pairwise_of_forall_mem_list fun _ _ e he _ => h e he
  have htracked : (ofChannel made : Session ε σ τ α).Tracked := by
    refine ⟨new.sound, fun closed => ?_, fun ⟨e, he, hcloses⟩ => ?_⟩
    · exact absurd (new.phase.symm.trans closed) (by decide)
    · rw [(hmute e he).1] at hcloses
      cases hcloses
  have h := continues_react (continues_perform (S := S) B depth) rs htracked
  have hshown := h.shown (hstart fun e he => (hmute e he).2.2)
  refine ⟨⟨fun silent => (h.told.1 silent.1).2, fun discreet => ⟨?_, hshown⟩⟩, hshown⟩
  exact h.told.2 ⟨hstart fun e he => (hmute e he).2.1, discreet⟩

/-! ## Two observers of an association -/

/-- One observer closes the channel, and has others join, as soon as it is told of anything. -/
def leaver (id : CallbackId) (others : List CallbackId) :
    Behaviour Bench.Script Bench.Vault Bench.Outlet Unit where
  onEvent _ told _ := if told = id then .call .close :: others.map .register else []
  onCode _ _ _ := []

/-- What happens to a new association that the user confirms. -/
def meeting (B : Behaviour Bench.Script Bench.Vault Bench.Outlet Unit)
    (rs : List (Request Bench.Vault Bench.Outlet Unit)) :
    Session Bench.Script Bench.Vault Bench.Outlet Unit :=
  react (perform B Bench.setting 2) rs (ofChannel ([.listening true], Bench.associating .empty))

/-- The second of two observers closes the channel when both are told of an error. Who joins then hears of
nothing. -/
theorem silent_after_last :
    (meeting (leaver 1 []) [.register 0, .register 1, .call (.streamFailed .malformedRecord), .register 2,
      .call (.streamFailed .malformedRecord)]).log.countP Entry.tells = 2 ∧
    Silent (meeting (leaver 1 []) [.register 0, .register 1, .call (.streamFailed .malformedRecord),
      .register 2, .call (.streamFailed .malformedRecord)]).log ∧
    DiscreetReact (perform (leaver 1 []) Bench.setting 2) (Discreet (leaver 1 []) Bench.setting 2)
      [.register 0, .register 1, .call (.streamFailed .malformedRecord), .register 2,
        .call (.streamFailed .malformedRecord)]
      (ofChannel ([.listening true], Bench.associating .empty)) := by
  let made : List Act × Channel Bench.Script Bench.Vault Bench.Outlet :=
    ([.listening true], Bench.associating .empty)
  have hnew : Channel.New Bench.setting made.2 := .association (.visual ..)
  have hsilent : Silent (meeting (leaver 1 []) [.register 0, .register 1,
      .call (.streamFailed .malformedRecord), .register 2, .call (.streamFailed .malformedRecord)]).log := by
    unfold Silent Ceases
    decide +kernel
  exact ⟨by decide +kernel, hsilent, (silent_iff_discreet hnew (leaver 1 []) 2 _).1.1 hsilent⟩

/-- The first of two observers closes the channel when both are told of an error: the second one is told after
that. Or the only one closes it when it is told that a frame cannot be opened, and another one joins: that one
is told that the handshake was given up. -/
theorem not_silent_after_first :
    ¬ Silent (meeting (leaver 0 []) [.register 0, .register 1, .call (.streamFailed .malformedRecord)]).log ∧
    ¬ Silent (meeting (leaver 0 [1]) [.register 0, .call (.arrived ⟨none, true, []⟩ .handshake)]).log := by
  unfold Silent Ceases
  decide +kernel

end Session

end DevicePairing
