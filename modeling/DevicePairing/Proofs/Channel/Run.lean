import DevicePairing.Channel.Call

/-!
# Runs of a channel

A channel is used by several parties at once, but never at the same moment: calls come in, observers join
and leave, and between two calls the stream moves on and others use the store. A `Move` is one of these,
a run is a list of moves, and `Channel.run` makes them one after another. A statement about every run is
a statement about every order of frames and requests, and about whatever the stream and the store do
meanwhile.

`Channel.run_induction` is the way to prove something of all runs: it holds at the start, and every move
keeps it. `Channel.serve` is the turn behind a call, in which the moves that matter are made.
-/

namespace DevicePairing

/-- One thing that happens to a channel or around it. -/
inductive Channel.Move (σ τ : Type) where
  /-- A call comes in. -/
  | call (call : Call)
  /-- An observer joins. -/
  | register (id : CallbackId)
  /-- An observer leaves. -/
  | unregister (id : CallbackId)
  /-- The listener for verification codes is set or cleared. -/
  | listen (listener : Option ListenerId)
  /-- The stream changes on its own account. -/
  | onStream (change : τ → τ)
  /-- Others use the store or draw from the tape. -/
  | onStore (change : σ → Tape → σ × Tape)

/-- A frame of the handshake comes in that is not sealed. -/
def Channel.Move.frame {σ τ : Type} (payload : Bytes) : Move σ τ :=
  .call (.arrived ⟨none, false, payload⟩ .handshake)

/-- What is left of something for which the channel has nothing to do. -/
def Outcome.idle : Outcome := ⟨.ok (), [], []⟩

/-- All that was done, in order. -/
def Outcome.actsOf (os : List Outcome) : List Act := os.flatMap Outcome.acts

/-- With no outcome nothing was done. -/
@[simp] theorem Outcome.actsOf_nil : Outcome.actsOf [] = [] := rfl

/-- The acts of a run come one outcome after another. -/
@[simp] theorem Outcome.actsOf_append (os os' : List Outcome) :
    Outcome.actsOf (os ++ os') = Outcome.actsOf os ++ Outcome.actsOf os' := List.flatMap_append

/-- The acts of one outcome are its acts. -/
@[simp] theorem Outcome.actsOf_singleton (o : Outcome) : Outcome.actsOf [o] = o.acts := by
  simp [Outcome.actsOf]

namespace Channel

variable {ε σ τ : Type} (S : Setting ε σ τ)

/-- Makes a move. -/
def move : Move σ τ → Channel ε σ τ → Outcome × Channel ε σ τ
  | .call i, c => c.call S i
  | .register id, c => (.idle, (c.register id).2)
  | .unregister id, c => (.idle, (c.unregister id).2)
  | .listen listener, c => (.idle, c.listen listener)
  | .onStream change, c => (.idle, { c with stream := change c.stream })
  | .onStore change, c =>
    let (store, tape) := change c.store c.tape
    (.idle, { c with store, tape })

/-- Makes moves one after another. -/
def run : List (Move σ τ) → Channel ε σ τ → List Outcome × Channel ε σ τ
  | [], c => ([], c)
  | m :: ms, c =>
    let (o, c) := c.move S m
    let (os, c) := run ms c
    (o :: os, c)

/-- A run without moves leaves the channel as it is. -/
@[simp] theorem run_nil (c : Channel ε σ τ) : c.run S [] = ([], c) := rfl

/-- A run goes on from what its first move leaves. -/
theorem run_cons (m : Move σ τ) (ms : List (Move σ τ)) (c : Channel ε σ τ) :
    c.run S (m :: ms) =
      ((c.move S m).1 :: ((c.move S m).2.run S ms).1, ((c.move S m).2.run S ms).2) := rfl

/-- A run may be taken apart anywhere. -/
theorem run_append (ms ms' : List (Move σ τ)) (c : Channel ε σ τ) :
    c.run S (ms ++ ms') =
      ((c.run S ms).1 ++ ((c.run S ms).2.run S ms').1, ((c.run S ms).2.run S ms').2) := by
  induction ms generalizing c with
  | nil => rfl
  | cons m ms ih => rw [List.cons_append, run_cons, ih, run_cons, List.cons_append]

/-- The last move of a run starts from what the others have left. -/
theorem run_concat (ms : List (Move σ τ)) (m : Move σ τ) (c : Channel ε σ τ) :
    (c.run S (ms ++ [m])).2 = ((c.run S ms).2.move S m).2 := by
  rw [run_append]
  rfl

/-- Its outcome is the last one. -/
theorem outcomes_concat (ms : List (Move σ τ)) (m : Move σ τ) (c : Channel ε σ τ) :
    (c.run S (ms ++ [m])).1 = (c.run S ms).1 ++ [((c.run S ms).2.move S m).1] := by
  rw [run_append]
  rfl

/-- Its acts come behind all others. -/
theorem acts_concat (ms : List (Move σ τ)) (m : Move σ τ) (c : Channel ε σ τ) :
    Outcome.actsOf (c.run S (ms ++ [m])).1 =
      Outcome.actsOf (c.run S ms).1 ++ ((c.run S ms).2.move S m).1.acts := by
  rw [outcomes_concat, Outcome.actsOf_append, Outcome.actsOf_singleton]

variable {S}

/-- What holds at the start and is kept by every move of a run holds at its end. -/
theorem run_induction {P : List Outcome → Channel ε σ τ → Prop} {c : Channel ε σ τ}
    (start : P [] c) :
    ∀ {ms : List (Move σ τ)},
      (∀ os d, ∀ m ∈ ms, P os d → P (os ++ [(d.move S m).1]) (d.move S m).2) →
      P (c.run S ms).1 (c.run S ms).2 := by
  suffices h : ∀ (ms : List (Move σ τ)) (os : List Outcome) (c : Channel ε σ τ), P os c →
      (∀ os d, ∀ m ∈ ms, P os d → P (os ++ [(d.move S m).1]) (d.move S m).2) →
      P (os ++ (c.run S ms).1) (c.run S ms).2 by
    intro ms step
    exact h ms [] c start step
  intro ms
  induction ms with
  | nil =>
    intro os c hP _
    simpa using hP
  | cons m ms ih =>
    intro os c hP step
    simp only [run_cons]
    rw [List.append_cons]
    exact ih _ _ (step os c m List.mem_cons_self hP)
      fun os d m' hm' => step os d m' (List.mem_cons_of_mem m hm')

/-! ## Calls -/

variable (S)

/-- The turn in which a call is dealt with, once it is over. -/
def serve (i : Call) (c : Channel ε σ τ) : Turn ε σ τ :=
  match i with
  | .arrived m .handshake => c.turn.takeHandshake S m
  | .arrived m .client => c.turn.takeMessage S m
  | .streamFailed e => c.turn.takeError e
  | .send m => (c.turn.send S m).2
  | .accept => c.turn.accept S
  | .close => c.turn.close

/-- A call leaves the channel that it leaves while it is dealt with, since the one who called has no part in it.
-/
theorem call_channel (i : Call) (c : Channel ε σ τ) :
    (c.call S i).2 = (c.serve S i).toChannel := by
  rcases i with ⟨m, _ | _⟩ | _ | _ | _ | _ <;> rfl

/-- The acts of a call are those of the turn in which it is dealt with. -/
theorem call_acts (i : Call) (c : Channel ε σ τ) : (c.call S i).1.acts = (c.serve S i).acts := by
  rcases i with ⟨m, _ | _⟩ | _ | _ | _ | _ <;> rfl

/-- So are its events. -/
theorem call_events (i : Call) (c : Channel ε σ τ) :
    (c.call S i).1.events = (c.serve S i).events := by
  rcases i with ⟨m, _ | _⟩ | _ | _ | _ | _ <;> rfl

/-- A turn begins with the channel as it is. -/
@[simp] theorem toChannel_turn (c : Channel ε σ τ) : c.turn.toChannel = c := rfl

/-- It begins with nothing done. -/
@[simp] theorem acts_turn (c : Channel ε σ τ) : c.turn.acts = [] := rfl

/-- It begins with nobody told of anything. -/
@[simp] theorem events_turn (c : Channel ε σ τ) : c.turn.events = [] := rfl

end Channel

end DevicePairing
