import DevicePairing.Link
import DevicePairing.Message

/-!
# Message streams

A stream turns messages into frames and frames into messages. Two kinds of framing are built on this
file: packets for links with small frames, and length prefixes for links that carry bytes. What a
stream does is recorded as a list of acts in the order they happen: frames handed to the link, and what
is told to the listener above.
-/

namespace DevicePairing

/-- What goes wrong in a stream. -/
inductive StreamError where
  /-- A message could not be written. -/
  | encode (reason : String)
  /-- A frame could not be read. -/
  | decode (reason : String)
  /-- A frame size leaves no room behind the header of a packet. -/
  | writeSize (size : Nat)
  /-- A packet came while another one of its message was expected. -/
  | outOfOrder (message expected got : UInt32)
  /-- The other side does not speak our versions, which are given. -/
  | unsupportedVersion (messaging security : UInt32)
  /-- A message is longer than allowed. -/
  | messageTooLarge (length limit : Nat)
  /-- The link refused a frame. -/
  | link (cause : LinkError)
  /-- Input or output failed. -/
  | io (reason : String)
  deriving DecidableEq

namespace StreamError

/-- The wording of a stream error. -/
def message : StreamError → String
  | .encode reason => s!"encode: {reason}"
  | .decode reason => s!"decode: {reason}"
  | .writeSize n => s!"max write size {n} cannot fit a packet header"
  | .outOfOrder id expected got =>
    s!"packet {got} of message {id} received out of order, expected {expected}"
  | .unsupportedVersion m s => s!"peer does not support messaging v{m} / security v{s}"
  | .messageTooLarge n limit => s!"message of {n} bytes exceeds limit of {limit}"
  | .link cause => s!"transport error: {cause.message}"
  | .io reason => s!"io error: {reason}"

/-- The error of a frame that is no record of the expected kind. -/
def malformedRecord : StreamError := .decode "<cbor>"

/-- The error of a frame too short for the header of a packet. -/
def shortPacket (length : Nat) : StreamError :=
  .decode s!"packet of {length} bytes is shorter than its header"

/-- The error of a packet whose number is not among those of its message. -/
def strayNumber (number total : UInt32) : StreamError :=
  .decode s!"packet number {number} outside 1..={total}"

end StreamError

/-- One thing a stream does. -/
inductive StreamAct where
  /-- Hands a frame to the link, with the link's answer. -/
  | handed (frame : Bytes) (answer : Except LinkError Unit)
  /-- Tells the listener of a message. -/
  | delivered (message : DeviceMessage) (operation : Operation)
  /-- Tells the listener of an error. -/
  | reported (error : StreamError)

/-- Something that messages are written to, with states of type `τ`. A write answers whether the message
was taken and says what was done for it; it may fail in any pattern. -/
structure MessageStream (τ : Type) where
  /-- Writes a message. -/
  write : DeviceMessage → Operation → τ → Except StreamError Unit × List StreamAct × τ

/-- The frames that the link accepted, in order. -/
def StreamAct.accepted : List StreamAct → List Bytes
  | [] => []
  | .handed frame (.ok _) :: acts => frame :: accepted acts
  | _ :: acts => accepted acts

/-- Frames are accepted one after another. -/
@[simp] theorem StreamAct.accepted_append (acts acts' : List StreamAct) :
    accepted (acts ++ acts') = accepted acts ++ accepted acts' := by
  induction acts with
  | nil => rfl
  | cons a acts ih =>
    cases a with
    | handed frame answer => cases answer <;> simp [accepted, ih]
    | delivered _ _ | reported _ => exact ih

/-- The messages that the listener was told of, in order. -/
def StreamAct.messages : List StreamAct → List (DeviceMessage × Operation)
  | [] => []
  | .delivered m op :: acts => (m, op) :: messages acts
  | _ :: acts => messages acts

/-- Messages arrive one after another. -/
@[simp] theorem StreamAct.messages_append (acts acts' : List StreamAct) :
    messages (acts ++ acts') = messages acts ++ messages acts' := by
  induction acts with
  | nil => rfl
  | cons a acts ih => cases a <;> simp [messages, ih]

/-- The errors that the listener was told of, in order. -/
def StreamAct.errors : List StreamAct → List StreamError
  | [] => []
  | .reported e :: acts => e :: errors acts
  | _ :: acts => errors acts

/-- What the listener is told when a whole envelope has arrived. -/
def StreamAct.ofEnvelope (bs : Bytes) : StreamAct :=
  match Envelope.decode? bs with
  | some (m, op) => .delivered m op
  | none => .reported .malformedRecord

end DevicePairing
