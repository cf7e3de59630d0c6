import DevicePairing.SessionKey

/-!
# Stages of a key exchange

What a key exchange has reached, what one step of it yields, and why a step may fail. These types are
shared by every key exchange engine; nothing here depends on how keys are agreed.
-/

namespace DevicePairing

/-- What a key exchange has reached. -/
inductive Stage where
  /-- Nothing has happened. -/
  | unknown
  /-- The first frame has been answered. -/
  | inProgress
  /-- The user has to compare codes. -/
  | verificationNeeded
  /-- Codes have to be compared out of band. -/
  | oobVerificationNeeded
  /-- A key is agreed. -/
  | finished
  /-- The peer has to prove that it holds the previous key. -/
  | resumingSession
  deriving DecidableEq

namespace Stage

/-- How far a stage is. -/
def rank : Stage → Nat
  | .unknown => 0
  | .inProgress => 1
  | .verificationNeeded | .oobVerificationNeeded | .resumingSession => 2
  | .finished => 3

/-- Whether going on to a stage is no step back. -/
def admits (s next : Stage) : Bool := s.rank ≤ next.rank

/-- A stage may be followed by itself and by every later one, and by no earlier one. -/
theorem admits_iff {s next : Stage} : s.admits next = true ↔ s.rank ≤ next.rank := by
  simp [admits]

/-- The name of a stage. -/
def name : Stage → String
  | .unknown => "Unknown"
  | .inProgress => "InProgress"
  | .verificationNeeded => "VerificationNeeded"
  | .oobVerificationNeeded => "OobVerificationNeeded"
  | .finished => "Finished"
  | .resumingSession => "ResumingSession"

/-- Every stage. -/
def all : List Stage :=
  [.unknown, .inProgress, .verificationNeeded, .oobVerificationNeeded, .finished, .resumingSession]

/-- The stage with a given name. -/
def ofName? (s : String) : Option Stage := all.find? (·.name = s)

end Stage

/-- What a step of a key exchange yields. -/
structure Reply where
  /-- The stage reached. -/
  stage : Stage
  /-- The frame to send to the peer. -/
  next : Option Bytes := none
  /-- The code to show to the user. -/
  code : Option String := none
  /-- The code to compare out of band. -/
  oobCode : Option Bytes := none
  /-- The key agreed. -/
  key : Option SessionKey := none
  deriving DecidableEq

/-- Why a step of a key exchange failed. -/
inductive ExchangeError where
  /-- The step does not belong to the stage the exchange is at. -/
  | invalidState (stage : Stage)
  /-- A frame does not say what it should. -/
  | protocol (reason : String)
  /-- The peer did not prove what it should. -/
  | authentication (reason : String)
  /-- A primitive failed. -/
  | crypto (reason : String)
  deriving DecidableEq

namespace ExchangeError

/-- The wording of an error. -/
def message : ExchangeError → String
  | .invalidState stage => s!"engine called in unexpected state {stage.name}"
  | .protocol reason => s!"protocol error: {reason}"
  | .authentication reason => s!"authentication failed: {reason}"
  | .crypto reason => s!"crypto failure: {reason}"

/-- A frame that is no record of the expected kind. -/
def malformedRecord : ExchangeError := .protocol "decode: <cbor>"

/-- A first frame whose commitment or random part has the wrong length. -/
def malformedInit : ExchangeError := .protocol "malformed client init"

/-- A public key of the wrong length. -/
def publicKeyLength (n : Nat) : ExchangeError := .protocol s!"public key length {n}"

/-- A public key that makes the shared secret zero. -/
def nonContributory : ExchangeError := .crypto "non-contributory public key"

/-- A public key that is not the one committed to. -/
def commitmentMismatch : ExchangeError := .authentication "commitment mismatch"

/-- A first side that does not hold the previous key. -/
def clientProofRejected : ExchangeError := .authentication "client reconnection proof rejected"

/-- A second side that does not hold the previous key. -/
def serverProofRejected : ExchangeError := .authentication "server reconnection proof rejected"

end ExchangeError

/-! ## Engines -/

/-- What a key exchange engine may be asked for. -/
inductive EngineCall where
  /-- To answer the first frame. -/
  | init (frame : Bytes)
  /-- To take in the second frame. -/
  | proceed (frame : Bytes)
  /-- To agree on a key, the codes having been compared. -/
  | verify
  /-- To agree on a key with a peer that proves it holds the previous one. -/
  | resume (frame previousKey : Bytes)
  deriving DecidableEq

/-- A key exchange engine with states of type `ε`. -/
structure Engine (ε : Type) where
  /-- Answers a call; may draw random bytes. -/
  answer : EngineCall → ε → Tape → Except ExchangeError Reply × ε × Tape
  /-- Says whether the exchange resumes an earlier one. -/
  setReconnecting : Bool → ε → ε

end DevicePairing
