import DevicePairing.Link

/-!
# Pipes

A link inside one process: two ends, and a queue of frames for each direction that is never full. An end
may also give out writers, which keep its outgoing direction open after the end itself is gone.

A reader finds its direction closed once the other end and all the other end's writers are gone and the
queue is empty; a writer finds it closed as soon as the reading end is gone.
-/

namespace DevicePairing

/-- One of the two ends. -/
inductive Side where
  /-- The first end. -/
  | left
  /-- The second end. -/
  | right
  deriving DecidableEq

/-- The opposite end. -/
def Side.other : Side → Side
  | .left => .right
  | .right => .left

/-- One direction of a pipe. -/
structure Lane where
  /-- Frames sent and not yet received. -/
  queue : List Bytes
  /-- Whether the sending end still exists. -/
  ended : Bool
  /-- The writers given out for this direction that still exist. -/
  writers : Nat
  /-- Whether the receiving end is gone. -/
  deaf : Bool
  deriving DecidableEq

/-- A fresh direction. -/
def Lane.fresh : Lane := ⟨[], false, 0, false⟩

/-- A pipe: the direction that each end sends into. -/
structure Pipe where
  /-- What the left end sends. -/
  fromLeft : Lane
  /-- What the right end sends. -/
  fromRight : Lane
  deriving DecidableEq

namespace Pipe

/-- A pipe with both ends in place. -/
def fresh : Pipe := ⟨.fresh, .fresh⟩

/-- The direction that an end sends into. -/
def lane (p : Pipe) : Side → Lane
  | .left => p.fromLeft
  | .right => p.fromRight

/-- The pipe with the direction that an end sends into replaced. -/
def setLane (p : Pipe) (side : Side) (l : Lane) : Pipe :=
  match side with
  | .left => { p with fromLeft := l }
  | .right => { p with fromRight := l }

/-- Sends a frame from an end or from one of its writers. -/
def send (side : Side) (frame : Bytes) (p : Pipe) : Except LinkError Unit × Pipe :=
  let l := p.lane side
  if l.deaf then (.error .closed, p)
  else (.ok (), p.setLane side { l with queue := l.queue ++ [frame] })

/-- What an end finds when it looks for a frame. -/
inductive Received where
  /-- A frame, which is taken. -/
  | frame (bs : Bytes)
  /-- Nothing yet. -/
  | silence
  /-- Nothing, and nothing can come. -/
  | closed
  deriving DecidableEq

/-- Looks for a frame at an end. -/
def receive (side : Side) (p : Pipe) : Received × Pipe :=
  let l := p.lane side.other
  match l.queue with
  | frame :: rest => (.frame frame, p.setLane side.other { l with queue := rest })
  | [] => (if l.ended ∧ l.writers = 0 then .closed else .silence, p)

/-- Waits for a frame at most the given time. A frame that is already there is found even without any
time to wait, and so is a closed link. -/
def receiveWithin (ms : Nat) (side : Side) (p : Pipe) : Except LinkError Bytes × Pipe :=
  match p.receive side with
  | (.frame bs, p) => (.ok bs, p)
  | (.silence, p) => (.error (.timeout ms), p)
  | (.closed, p) => (.error .closed, p)

/-- Takes every frame that is there. The second part tells whether the link is closed behind them. -/
def drain (side : Side) (p : Pipe) : List Bytes × Bool × Pipe :=
  let l := p.lane side.other
  (l.queue, decide (l.ended ∧ l.writers = 0), p.setLane side.other { l with queue := [] })

/-- Gives out a writer for an end. -/
def addWriter (side : Side) (p : Pipe) : Pipe :=
  p.setLane side { p.lane side with writers := (p.lane side).writers + 1 }

/-- Takes back all writers of an end. -/
def dropWriters (side : Side) (p : Pipe) : Pipe :=
  p.setLane side { p.lane side with writers := 0 }

/-- Removes an end: its outgoing direction has no sender but its writers any more, its incoming one no
reader, and what was on the way to it is lost. -/
def dropEnd (side : Side) (p : Pipe) : Pipe :=
  let p := p.setLane side { p.lane side with ended := true }
  p.setLane side.other { p.lane side.other with deaf := true, queue := [] }

/-- The frame sink of an end. -/
def sink (side : Side) : FrameSink Pipe := ⟨send side⟩

end Pipe

end DevicePairing
