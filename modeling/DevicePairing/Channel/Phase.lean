/-!
# The life of a channel

A channel starts out handshaking. From there it becomes established or fails with a code, and from
every phase it can be closed, once and for all. `transition_eq_ok_iff` lists the moves.
-/

namespace DevicePairing

/-- Why a handshake was given up. -/
inductive ErrorCode where
  /-- A step did not belong to the state the handshake was in. -/
  | invalidState
  /-- There was no code to verify, or the codes differ. -/
  | invalidVerification
  /-- The last frame does not start with the identifier of a device. -/
  | invalidDeviceId
  /-- Secrets could not be read or kept. -/
  | storage
  /-- There is no usable key, or the peer failed the challenge. -/
  | invalidEncryptionKey
  /-- A message was missing or could not be sent. -/
  | invalidMessage
  /-- The key exchange refused a frame. -/
  | invalidHandshake
  deriving DecidableEq

namespace ErrorCode

/-- The name of a code. -/
def name : ErrorCode → String
  | .invalidState => "InvalidState"
  | .invalidVerification => "InvalidVerification"
  | .invalidDeviceId => "InvalidDeviceId"
  | .storage => "StorageError"
  | .invalidEncryptionKey => "InvalidEncryptionKey"
  | .invalidMessage => "InvalidMsg"
  | .invalidHandshake => "InvalidHandshake"

/-- Every code. -/
def all : List ErrorCode :=
  [.invalidState, .invalidVerification, .invalidDeviceId, .storage, .invalidEncryptionKey,
    .invalidMessage, .invalidHandshake]

/-- The code with a given name. -/
def ofName? (s : String) : Option ErrorCode := all.find? (·.name = s)

end ErrorCode

/-- A phase in the life of a channel. -/
inductive Phase where
  /-- No key is confirmed yet. -/
  | handshaking
  /-- Messages may pass. -/
  | established
  /-- The handshake was given up. -/
  | failed (code : ErrorCode)
  /-- The channel is torn down. -/
  | closed
  deriving DecidableEq

namespace Phase

/-- The text of a phase. -/
def text : Phase → String
  | .handshaking => "Handshaking"
  | .established => "Established"
  | .failed code => s!"Failed({code.name})"
  | .closed => "Closed"

/-- Whether the handshake is still going on. -/
def isHandshaking (p : Phase) : Bool := p = .handshaking

/-- Whether the channel has failed or is closed. -/
def isTerminal : Phase → Bool
  | .failed _ | .closed => true
  | _ => false

/-- A move that the life of a channel does not have. -/
structure InvalidTransition where
  /-- The phase the channel was in. -/
  source : Phase
  /-- The phase it should have moved to. -/
  target : Phase
  deriving DecidableEq

/-- The wording of a refused move. -/
def InvalidTransition.message (e : InvalidTransition) : String :=
  s!"invalid channel transition {e.source.text} -> {e.target.text}"

/-- Moves to the next phase, where there is such a move. -/
def transition (p next : Phase) : Except InvalidTransition Phase :=
  match p, next with
  | .handshaking, .established => .ok next
  | .handshaking, .failed _ => .ok next
  | .closed, _ => .error ⟨p, next⟩
  | _, .closed => .ok next
  | _, _ => .error ⟨p, next⟩

/-- A channel may be established or fail as long as it is handshaking, and may be closed unless it is; all other
transitions are refused. -/
theorem transition_eq_ok_iff {p next q : Phase} :
    p.transition next = .ok q ↔
      q = next ∧ (p = .handshaking ∧ (next = .established ∨ ∃ code, next = .failed code) ∨
        p ≠ .closed ∧ next = .closed) := by
  cases p <;> cases next <;> simp [transition, eq_comm]

end Phase

end DevicePairing
