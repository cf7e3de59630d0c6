import DevicePairing.Message.Version
import DevicePairing.Stream.Packet.Receiver

/-!
# Packet streams

A stream for links with small frames. The first frame in each direction states versions; after that
every frame is a packet. Packets leave one at a time: the next one waits until the link says that the
one before it is through.

A frame that the link refuses is gone; the ones behind it stay queued and leave with the next write or
completion.
-/

namespace DevicePairing

/-- Who states versions first. -/
inductive OfferRole where
  /-- Waits for the other side's versions and answers them. -/
  | responder
  /-- States its versions first. -/
  | initiator
  deriving DecidableEq

/-- The sending side of a packet stream. -/
structure Sender where
  /-- The number of the next message; it wraps. -/
  nextMessage : UInt32
  /-- Packets not yet handed to the link. -/
  queue : List Packet
  /-- Whether a packet is under way. -/
  inFlight : Bool
  deriving DecidableEq

/-- A stream over a link with small frames. -/
structure PacketStream (κ : Type) where
  /-- The link frames are handed to. -/
  link : κ
  /-- The part played in the exchange of versions. -/
  role : OfferRole
  /-- The longest frame. -/
  size : Nat
  /-- A frame has room behind the header of a packet. -/
  roomy : packetHeaderSize < size
  /-- The longest message. -/
  limit : Nat
  /-- The sending side. -/
  sender : Sender
  /-- The receiving side. -/
  receiver : Receiver

namespace PacketStream

variable {κ : Type}

/-- A stream that has sent and received nothing. -/
def ofConfig (link : κ) (c : Config) (role : OfferRole) : Except StreamError (PacketStream κ) :=
  if h : packetHeaderSize < c.maxWriteSize then
    .ok { link, role, size := c.maxWriteSize, roomy := h, limit := c.maxMessageSize
          sender := ⟨0, [], false⟩, receiver := .fresh }
  else .error (.writeSize c.maxWriteSize)

/-- Changes the longest frame, for messages written from now on. -/
def setSize (size : Nat) (s : PacketStream κ) : Except StreamError Unit × PacketStream κ :=
  if h : packetHeaderSize < size then (.ok (), { s with size, roomy := h })
  else (.error (.writeSize size), s)

/-- Hands a frame to the link. -/
def hand (sink : FrameSink κ) (frame : Bytes) (s : PacketStream κ) :
    Except StreamError Unit × List StreamAct × PacketStream κ :=
  let (answer, link) := sink.send frame s.link
  (match answer with
    | .ok _ => .ok ()
    | .error e => .error (.link e),
   [.handed frame answer], { s with link })

/-- Hands the next packet to the link, unless one is under way or none is left. -/
def sendNext (sink : FrameSink κ) (s : PacketStream κ) :
    Except StreamError Unit × List StreamAct × PacketStream κ :=
  if s.sender.inFlight then (.ok (), [], s)
  else
    match s.sender.queue with
    | [] => (.ok (), [], s)
    | p :: queue =>
      match s.hand sink p.toBytes with
      | (.ok _, acts, s) =>
        (.ok (), acts, { s with sender := { s.sender with queue, inFlight := true } })
      | (.error e, acts, s) => (.error e, acts, { s with sender := { s.sender with queue } })

/-- Writes a message: its packets join the queue under the next message number. -/
def write (sink : FrameSink κ) (m : DeviceMessage) (op : Operation) (s : PacketStream κ) :
    Except StreamError Unit × List StreamAct × PacketStream κ :=
  let data := Envelope.encode m op
  if s.limit < data.length then (.error (.messageTooLarge data.length s.limit), [], s)
  else
    let id := s.sender.nextMessage
    let s := { s with sender := { s.sender with nextMessage := id + 1 } }
    match Packet.split data id s.size with
    | .error e => (.error e, [], s)
    | .ok packets =>
      { s with sender := { s.sender with queue := s.sender.queue ++ packets } }.sendNext sink

/-- The link says that the packet under way is through. -/
def completed (sink : FrameSink κ) (s : PacketStream κ) : List StreamAct × PacketStream κ :=
  match { s with sender := { s.sender with inFlight := false } }.sendNext sink with
  | (.ok _, acts, s) => (acts, s)
  | (.error e, acts, s) => (acts ++ [.reported e], s)

/-- States our versions to the other side. -/
def begin (sink : FrameSink κ) (s : PacketStream κ) :
    Except StreamError Unit × List StreamAct × PacketStream κ :=
  s.hand sink VersionOffer.supported.encode

/-- Takes in the frame that should state the other side's versions. A responder states its own before
the exchange counts as done. -/
def exchange (sink : FrameSink κ) (frame : Bytes) (s : PacketStream κ) :
    Except StreamError Unit × List StreamAct × PacketStream κ :=
  match VersionOffer.decode? frame with
  | none => (.error .malformedRecord, [], s)
  | some offer =>
    if offer.compatible then
      match s.role with
      | .initiator => (.ok (), [], { s with receiver := { s.receiver with exchanged := true } })
      | .responder =>
        match s.begin sink with
        | (.ok _, acts, s) =>
          (.ok (), acts, { s with receiver := { s.receiver with exchanged := true } })
        | (.error e, acts, s) => (.error e, acts, s)
    else (.error (.unsupportedVersion messagingVersion securityVersion), [], s)

/-- Takes in a frame from the link. -/
def feed (sink : FrameSink κ) (frame : Bytes) (s : PacketStream κ) :
    List StreamAct × PacketStream κ :=
  if s.receiver.exchanged then
    match Packet.parse frame with
    | .error e => ([.reported e], s)
    | .ok p =>
      let (outcome, receiver) := s.receiver.accept s.limit p
      (match outcome with
        | .ok (.complete data) => [.ofEnvelope data]
        | .ok _ => []
        | .error e => [.reported e],
       { s with receiver })
  else
    match s.exchange sink frame with
    | (.ok _, acts, s) => (acts, s)
    | (.error e, acts, s) => (acts ++ [.reported e], s)

/-- Streams over a given link, as something to write messages to. -/
def messages (sink : FrameSink κ) : MessageStream (PacketStream κ) := ⟨write sink⟩

end PacketStream

end DevicePairing
