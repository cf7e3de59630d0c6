import DevicePairing.Json.Reader
import DevicePairing.Json.Writer

/-!
# Settings of a channel

Three numbers of 64 bits, read from a JSON record in which any of them may be missing. What is read is
checked before it is used, and the first fault found is the one reported.
-/

namespace DevicePairing

/-- The bytes of the header that starts every packet. -/
def packetHeaderSize : Nat := 12

/-- The settings of a channel. -/
structure Config where
  /-- The longest frame the link takes. -/
  maxWriteSize : Nat
  /-- The longest message in its envelope. -/
  maxMessageSize : Nat
  /-- How long to wait for a frame, in milliseconds. -/
  receiveTimeout : Nat
  deriving DecidableEq

/-- Why settings are refused. -/
inductive ConfigError where
  /-- The text is no JSON record of the three numbers. -/
  | malformed
  /-- The write size leaves no room behind the header of a packet. -/
  | writeSize (n : Nat)
  /-- No message could be received. -/
  | messageSize
  /-- There is no time to wait. -/
  | receiveTimeout
  deriving DecidableEq

/-- The wording of a fault. -/
def ConfigError.message : ConfigError → String
  | .malformed => "invalid config json: <json>"
  | .writeSize n => s!"max_write_size must exceed the 12-byte packet header, got {n}"
  | .messageSize => "max_message_size must be non-zero"
  | .receiveTimeout => "recv_timeout_ms must be non-zero"

namespace Config

/-- The settings where nothing is said. -/
def default : Config := ⟨185, 65536, 10000⟩

/-- The names of the settings, in order. -/
def names : List String := ["max_write_size", "max_message_size", "recv_timeout_ms"]

/-- Checks the write size, the message size and the timeout, in this order. -/
def check (c : Config) : Except ConfigError Unit :=
  if c.maxWriteSize ≤ packetHeaderSize then .error (.writeSize c.maxWriteSize)
  else if c.maxMessageSize = 0 then .error .messageSize
  else if c.receiveTimeout = 0 then .error .receiveTimeout
  else .ok ()

/-- A configuration is accepted exactly if a packet has room for more than its header and neither the longest
message nor the longest wait is nothing. -/
theorem check_eq_ok_iff {c : Config} :
    c.check = .ok () ↔
      packetHeaderSize < c.maxWriteSize ∧ c.maxMessageSize ≠ 0 ∧ c.receiveTimeout ≠ 0 := by
  unfold check
  constructor
  · intro h
    split at h
    · simp at h
    split at h
    · simp at h
    split at h
    · simp at h
    · next h1 h2 h3 => exact ⟨by omega, h2, h3⟩
  · rintro ⟨h1, h2, h3⟩
    rw [if_neg (by omega), if_neg h2, if_neg h3]

/-- One setting: the default where it is missing, and refused unless it is a number that eight bytes can spell. -/
def setting (fallback : Nat) : Option Json → Option Nat
  | none => some fallback
  | some v => v.nat? (capacity 8)

/-- The settings a JSON value spells. -/
def ofJson? (v : Json) : Option Config := do
  let [write, message, timeout] ← v.fields? names | none
  return {
    maxWriteSize := ← setting default.maxWriteSize write
    maxMessageSize := ← setting default.maxMessageSize message
    receiveTimeout := ← setting default.receiveTimeout timeout }

/-- Reads settings and checks them. -/
def ofText (s : String) : Except ConfigError Config :=
  match (Json.parse? s).bind ofJson? with
  | none => .error .malformed
  | some c =>
    match c.check with
    | .ok _ => .ok c
    | .error e => .error e

/-- The JSON value of settings. -/
def toJson (c : Config) : Json :=
  .ofFields (names.zip [Json.ofNat c.maxWriteSize, .ofNat c.maxMessageSize, .ofNat c.receiveTimeout])

end Config

end DevicePairing
