import DevicePairing.Stream.Packet

/-!
# Unfinished

Packets of several messages may arrive interleaved, those of one message in order. The receiving side
keeps at most `maxPending` unfinished messages and drops the oldest one to make room. Which one is the oldest it
tells by stamps: a message is stamped with the count of messages begun. A repeated packet is passed over if it is
the latest one of its message, or the last one of the message completed last.

The unfinished messages form a list in which no message occurs twice; the order of the list means
nothing.
-/

namespace DevicePairing

/-- A message of which some packets have arrived. -/
structure Unfinished where
  /-- The message. -/
  message : UInt32
  /-- The number of the packet it waits for. -/
  next : UInt32
  /-- The pieces so far. -/
  data : Bytes
  /-- When the message was begun: what the count of messages came to with it. -/
  stamp : UInt64
  deriving DecidableEq

/-- The receiving side of a packet stream. -/
structure Receiver where
  /-- Whether the other side's versions have been seen and found good. -/
  exchanged : Bool
  /-- The unfinished messages. -/
  pending : List Unfinished
  /-- How many messages have been begun: a count of sixty-four bits, which starts over from zero. -/
  started : UInt64
  /-- The message completed last, with the number of its last packet. -/
  lastCompleted : Option (UInt32 × UInt32)
  deriving DecidableEq

/-- What came of a packet that fits. -/
inductive Progress where
  /-- Its message goes on. -/
  | stored
  /-- It had been seen before. -/
  | duplicate
  /-- Its message is complete. -/
  | complete (data : Bytes)
  deriving DecidableEq

namespace Receiver

/-- How many unfinished messages are kept. -/
def maxPending : Nat := 4

/-- Nothing received. -/
def fresh : Receiver := ⟨false, [], 0, none⟩

/-- What has arrived of a message. -/
def find? (id : UInt32) (s : Receiver) : Option Unfinished := s.pending.find? (·.message = id)

/-- The packet a message waits for: the first one, if nothing has arrived of it. -/
def expected (id : UInt32) (s : Receiver) : UInt32 :=
  match s.find? id with
  | some r => r.next
  | none => 1

/-- Gives up on a message. -/
def forget (id : UInt32) (s : Receiver) : Receiver :=
  { s with pending := s.pending.filter (·.message ≠ id) }

/-- Records what has arrived of a message. -/
def put (r : Unfinished) (s : Receiver) : Receiver :=
  { s with pending := (s.forget r.message).pending ++ [r] }

/-- The list without the message that has the lowest stamp. -/
def dropOldest (rs : List Unfinished) : List Unfinished :=
  match (rs.map (·.stamp)).min? with
  | some oldest => rs.eraseP (·.stamp = oldest)
  | none => rs

/-- The list without as many messages of the lowest stamps as leave room for one more. -/
def makeRoom (rs : List Unfinished) : List Unfinished :=
  Nat.repeat dropOldest (rs.length + 1 - maxPending) rs

/-- What has arrived of the message of a packet before it, and the state in which there is room for
that message. -/
def opened (id : UInt32) (s : Receiver) : Unfinished × Receiver :=
  match s.find? id with
  | some r => (r, s)
  | none =>
    (⟨id, 1, [], s.started + 1⟩, { s with pending := makeRoom s.pending, started := s.started + 1 })

/-- Whether a packet had been seen before. -/
def isRepeated (p : Packet) (s : Receiver) : Prop :=
  s.lastCompleted = some (p.message, p.number) ∨
    (1 < s.expected p.message ∧ p.number = s.expected p.message - 1)

instance (p : Packet) (s : Receiver) : Decidable (s.isRepeated p) :=
  inferInstanceAs (Decidable (_ ∨ _))

/-- Takes in a packet. A packet out of order, or one that makes its message longer than the limit, gives
up on its message. -/
def accept (limit : Nat) (p : Packet) (s : Receiver) : Except StreamError Progress × Receiver :=
  if s.isRepeated p then (.ok .duplicate, s)
  else if p.number ≠ s.expected p.message then
    (.error (.outOfOrder p.message (s.expected p.message) p.number), s.forget p.message)
  else
    let (before, s) := s.opened p.message
    let r := { before with next := p.number + 1, data := before.data ++ p.payload }
    if limit < r.data.length then
      (.error (.messageTooLarge r.data.length limit), s.forget p.message)
    else if p.number ≠ p.total then (.ok .stored, s.put r)
    else
      (.ok (.complete r.data),
        { s.forget p.message with lastCompleted := some (p.message, p.number) })

end Receiver

end DevicePairing
