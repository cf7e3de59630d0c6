import DevicePairing.Channel.Association

/-!
# Reconnection

The steps by which a known device comes back, by what the handshake has reached:

* `unknown`, not verified: the frame has to start with the answer to our challenge; the rest of it is the
  peer's own challenge, which is answered;
* `unknown`, verified: the first frame goes to the engine, and its answer to the peer;
* `inProgress`: the second frame goes to the engine;
* `resumingSession`: the peer proves that it holds the stored key. The engine agrees on a new one, which
  replaces it in the store before it is used.
-/

namespace DevicePairing.Reconnection

variable {ε σ τ : Type} (S : Setting ε σ τ)

/-- The frame that should prove who the peer is. -/
def verify (device : Uuid) (expected : Option Bytes) (payload : Bytes) : Work ε σ τ Unit := do
  let expected ← Work.require .invalidState expected
  if payload.take expected.length ≠ expected then throw .invalidEncryptionKey
  let proof ← Work.hash S device (payload.drop expected.length)
  Work.sendPlain S proof.val
  Work.setKind (.reconnection device (some expected) true)

/-- The second frame. What the engine has reached is taken over as it is. -/
def proceed (payload : Bytes) : Work ε σ τ Unit := do
  let reply ← Work.ask S (.proceed payload)
  Work.advance reply.stage
  match reply.next with
  | some next => Work.sendPlain S next
  | none => pure ()

/-- The frame that proves that the peer holds the stored key. -/
def resume (device : Uuid) (payload : Bytes) : Work ε σ τ Unit := do
  let previous ← Work.require .invalidEncryptionKey (← Work.readKey S device)
  let reply ← Work.ask S (.resume payload previous)
  if reply.stage ≠ .finished then throw .invalidState
  let key ← Work.require .invalidEncryptionKey reply.key
  let next ← Work.require .invalidMessage reply.next
  Work.saveKey S device key.toBytes
  Work.advance .finished
  Work.setKey key
  Work.sendPlain S next
  Work.establish

/-- Deals with the payload of a frame. -/
def handle (device : Uuid) (expected : Option Bytes) (verified : Bool) (payload : Bytes) :
    Work ε σ τ Unit := do
  match (← get).stage with
  | .unknown => if verified then Association.init S payload else verify S device expected payload
  | .inProgress => proceed S payload
  | .resumingSession => resume S device payload
  | _ => throw .invalidState

end DevicePairing.Reconnection
