import DevicePairing.KeyExchange.Agreement

/-!
# The answering side of the exchange

The engine a secure channel is driven with. It answers the first frame with its public key, checks that
the public key it is then shown is the one committed to, and leaves the rest to how the exchange is
confirmed: a code for the user, a code to compare out of band, or a proof of the previous key.
-/

namespace DevicePairing

/-- The answering side. -/
structure Responder where
  /-- What the exchange has reached. -/
  stage : Stage
  /-- Whether an earlier exchange is resumed. -/
  reconnecting : Bool
  /-- Whether codes are compared out of band. -/
  outOfBand : Bool
  /-- The secret, from the first frame until it is used. -/
  secret : Option (Block 32)
  /-- The commitment of the first frame. -/
  commitment : Bytes
  /-- The frames exchanged. -/
  transcript : Bytes
  /-- What was agreed. -/
  agreement : Option Agreement
  deriving DecidableEq

namespace Responder

/-- A responder whose code the user compares. -/
def visual : Responder := ⟨.unknown, false, false, none, [], [], none⟩

/-- A responder whose code is compared out of band. -/
def forOutOfBand : Responder := { visual with outOfBand := true }

/-- A responder that resumes an earlier exchange. -/
def forReconnection : Responder := { visual with reconnecting := true }

variable (S : Suite)

/-- Answers the first frame. Randomness is drawn only once the frame is accepted: first the secret, then
the random part of the answer. -/
def init (frame : Bytes) (r : Responder) (t : Tape) :
    Except ExchangeError Reply × Responder × Tape :=
  if r.stage ≠ .unknown then (.error (.invalidState r.stage), r, t)
  else
    match Commitment.decode? frame with
    | none => (.error .malformedRecord, r, t)
    | some f =>
      if f.commitment.length ≠ 32 ∨ f.random.length ≠ 32 then (.error .malformedInit, r, t)
      else
        let (secret, t) := t.draw 32
        let (random, t) := t.draw 32
        let answer := (KeyShare.mk (S.publicKey secret).val random.val).encode
        (.ok { stage := .inProgress, next := some answer },
          { r with
            stage := .inProgress
            secret := some secret
            commitment := f.commitment
            transcript := r.transcript ++ frame ++ answer }, t)

/-- What the exchange reports once it is agreed, by how it will be confirmed. -/
def confirmation (r : Responder) (a : Agreement) : Reply :=
  if r.reconnecting then { stage := .resumingSession }
  else if r.outOfBand then { stage := .oobVerificationNeeded, oobCode := some a.oobCode }
  else { stage := .verificationNeeded, code := some a.code }

/-- Takes in the public key that was committed to. The secret is used up by the attempt. -/
def proceed (frame : Bytes) (r : Responder) : Except ExchangeError Reply × Responder :=
  if r.stage ≠ .inProgress then (.error (.invalidState r.stage), r)
  else
    match Disclosure.decode? frame with
    | none => (.error .malformedRecord, r)
    | some f =>
      if (S.digest f.publicKey).val ≠ r.commitment then (.error .commitmentMismatch, r)
      else
        match r.secret with
        | none => (.error (.invalidState r.stage), r)
        | some secret =>
          let r := { r with secret := none, transcript := r.transcript ++ frame }
          match Agreement.derive S secret f.publicKey r.transcript with
          | .error e => (.error e, r)
          | .ok a =>
            let reply := r.confirmation a
            (.ok reply, { r with stage := reply.stage, agreement := some a })

/-- Agrees on the key of a first exchange. -/
def verify (r : Responder) : Except ExchangeError Reply × Responder :=
  if r.stage ≠ .verificationNeeded ∧ r.stage ≠ .oobVerificationNeeded then
    (.error (.invalidState r.stage), r)
  else
    match r.agreement with
    | none => (.error (.invalidState r.stage), r)
    | some a => (.ok { stage := .finished, key := some (a.sessionKey S) }, { r with stage := .finished })

/-- Agrees on a new key with a peer that proves it holds the previous one. -/
def resume (frame previousKey : Bytes) (r : Responder) : Except ExchangeError Reply × Responder :=
  if r.stage ≠ .resumingSession then (.error (.invalidState r.stage), r)
  else
    match r.agreement with
    | none => (.error (.invalidState r.stage), r)
    | some a =>
      if frame ≠ a.clientProof S previousKey then (.error .clientProofRejected, r)
      else
        (.ok { stage := .finished, key := some (a.resumedKey S previousKey),
               next := some (a.serverProof S previousKey) }, { r with stage := .finished })

/-- The responder as an engine. -/
def engine : Engine Responder where
  answer
    | .init frame, r, t => r.init S frame t
    | .proceed frame, r, t => let (reply, r) := r.proceed S frame; (reply, r, t)
    | .verify, r, t => let (reply, r) := r.verify S; (reply, r, t)
    | .resume frame previousKey, r, t =>
      let (reply, r) := r.resume S frame previousKey; (reply, r, t)
  setReconnecting flag r := { r with reconnecting := flag }

end Responder

end DevicePairing
