import DevicePairing.KeyExchange.Agreement

/-!
# The first side of the exchange

The device that starts the exchange commits to its public key, shows it once it has seen the other
side's, and then holds the agreement from which codes, keys and proofs are read off.
-/

namespace DevicePairing

/-- The first side. -/
structure Initiator where
  /-- The secret, until it is used. -/
  secret : Option (Block 32)
  /-- The public key. -/
  publicKey : Block 32
  /-- The frames exchanged. -/
  transcript : Bytes
  /-- What was agreed. -/
  agreement : Option Agreement
  deriving DecidableEq

namespace Initiator

variable (S : Suite)

/-- A side with a fresh secret. -/
def fresh (t : Tape) : Initiator × Tape :=
  let (secret, t) := t.draw 32
  (⟨some secret, S.publicKey secret, [], none⟩, t)

/-- Makes the first frame. -/
def commit (i : Initiator) (t : Tape) : Except ExchangeError Bytes × Initiator × Tape :=
  if i.transcript ≠ [] then (.error (.invalidState .inProgress), i, t)
  else
    let (random, t) := t.draw 32
    let frame := (Commitment.mk (S.digest i.publicKey.val).val random.val).encode
    (.ok frame, { i with transcript := i.transcript ++ frame }, t)

/-- Takes in the answer to the first frame and makes the second. The secret is used up by the
attempt. -/
def reveal (frame : Bytes) (i : Initiator) : Except ExchangeError Bytes × Initiator :=
  match i.secret with
  | none => (.error (.invalidState .finished), i)
  | some secret =>
    let i := { i with secret := none }
    match KeyShare.decode? frame with
    | none => (.error .malformedRecord, i)
    | some f =>
      let finished := (Disclosure.mk i.publicKey.val).encode
      let i := { i with transcript := i.transcript ++ frame ++ finished }
      match Agreement.derive S secret f.publicKey i.transcript with
      | .error e => (.error e, i)
      | .ok a => (.ok finished, { i with agreement := some a })

/-- Something read off the agreement, once there is one. -/
def read {α : Type} (f : Agreement → Except ExchangeError α) (i : Initiator) :
    Except ExchangeError α :=
  match i.agreement with
  | some a => f a
  | none => .error (.invalidState .inProgress)

/-- The code that the user compares. -/
def code (i : Initiator) : Except ExchangeError String := i.read fun a => .ok a.code

/-- The code to compare out of band. -/
def oobCode (i : Initiator) : Except ExchangeError Bytes := i.read fun a => .ok a.oobCode

/-- The key of a first exchange. -/
def sessionKey (i : Initiator) : Except ExchangeError SessionKey :=
  i.read fun a => .ok (a.sessionKey S)

/-- The proof that this side holds the previous key. -/
def proof (previousKey : Bytes) (i : Initiator) : Except ExchangeError Bytes :=
  i.read fun a => .ok (a.clientProof S previousKey)

/-- Checks that the other side holds the previous key, and agrees on the new one. -/
def confirm (frame previousKey : Bytes) (i : Initiator) : Except ExchangeError SessionKey :=
  i.read fun a =>
    if frame ≠ a.serverProof S previousKey then .error .serverProofRejected
    else .ok (a.resumedKey S previousKey)

end Initiator

end DevicePairing
