import DevicePairing.Cbor.Record
import DevicePairing.Json
import DevicePairing.Uuid

/-!
# Device messages and their envelope

A device message is what one device means to say to another: a payload, whether it is sealed, and the
device it is meant for. On the wire it travels in an envelope, which adds what the message is for.

`Envelope.decode?` reads every spelling of an envelope that the record format allows;
`Envelope.encode` writes one.
-/

namespace DevicePairing

/-- What a message is for. -/
inductive Operation where
  /-- A frame of the key exchange and of what surrounds it. -/
  | handshake
  /-- A message of the application. -/
  | client
  deriving DecidableEq

namespace Operation

/-- The names of the operations on the wire, in order. -/
def labels : List String := ["EncryptionHandshake", "ClientMessage"]

/-- The place of an operation in the list of names. -/
def toFin : Operation → Fin labels.length
  | .handshake => ⟨0, by decide⟩
  | .client => ⟨1, by decide⟩

/-- The operation at a place. -/
def ofFin (i : Fin labels.length) : Operation := if i.val = 0 then .handshake else .client

/-- An operation is known again by its place among the labels. -/
@[simp] theorem ofFin_toFin (op : Operation) : ofFin op.toFin = op := by
  cases op <;> rfl

/-- The name of an operation. -/
def name (op : Operation) : String := labels[op.toFin]

/-- The operation with a given name. -/
def ofName? (s : String) : Option Operation :=
  if s = Operation.handshake.name then some .handshake
  else if s = Operation.client.name then some .client
  else none

end Operation

/-- A message between devices. -/
structure DeviceMessage where
  /-- The device the message is for, if it names one. -/
  recipient : Option Uuid
  /-- Whether the payload is sealed under the session key. -/
  encrypted : Bool
  /-- The payload. -/
  payload : Bytes
  deriving DecidableEq

namespace DeviceMessage

/-- The message for the same recipient with another payload. -/
def withPayload (m : DeviceMessage) (encrypted : Bool) (payload : Bytes) : DeviceMessage :=
  { m with encrypted, payload }

/-- The JSON value of a message. -/
def toJson (m : DeviceMessage) : Json :=
  .ofFields [
    ("recipient", match m.recipient with | some u => .ofString u.text | none => .null),
    ("encrypted", .bool m.encrypted), ("payload", .ofBytes m.payload)]

end DeviceMessage

namespace Envelope

/-- The columns of an envelope. -/
def columns : Cbor.Columns :=
  [("operation", .choice Operation.labels), ("recipient", .optionalBlock 16),
   ("is_payload_encrypted", .flag), ("payload", .bytes)]

/-- The row of a message and its operation. -/
def toRow (m : DeviceMessage) (op : Operation) : Cbor.Row columns :=
  (op.toFin, m.recipient.map Uuid.octets, m.encrypted, m.payload, ())

/-- The message and the operation of a row. -/
def ofRow (row : Cbor.Row columns) : DeviceMessage × Operation :=
  match row with
  | (op, recipient, encrypted, payload, _) =>
    ({ recipient := Option.map Uuid.mk recipient, encrypted, payload }, Operation.ofFin op)

/-- A message and its operation are known again from the row that an envelope holds of them. -/
@[simp] theorem ofRow_toRow (m : DeviceMessage) (op : Operation) : ofRow (toRow m op) = (m, op) := by
  obtain ⟨recipient, encrypted, payload⟩ := m
  cases recipient <;> simp [ofRow, toRow]

/-- The bytes of a message in its envelope. -/
def encode (m : DeviceMessage) (op : Operation) : Bytes := Cbor.Row.write columns (toRow m op)

/-- The message and the operation that an envelope holds. -/
def decode? (bs : Bytes) : Option (DeviceMessage × Operation) :=
  (Cbor.Row.decode? columns bs).map ofRow

end Envelope

end DevicePairing
