import DevicePairing.Channel.Turn

/-!
# Association

The steps of a first association, by what the handshake has reached:

* `unknown`: the first frame goes to the engine, and its answer to the peer;
* `inProgress`: the second frame goes to the engine, which comes up with a code. In the visual flow a
  listener shows it and the user has to accept it. In the out-of-band flow it is sent to the peer under
  the out-of-band cipher, and the peer sends its own;
* `oobVerificationNeeded`: the peer's code has to be ours;
* `finished`: the last frame, the identifier of the peer and its challenge secret, is stored.

Accepting a code has the engine agree on the key, under which our own identifier is sent.
-/

namespace DevicePairing.Association

variable {ε σ τ : Type} (S : Setting ε σ τ)

/-- The length of a device identifier. -/
def deviceIdSize : Nat := 16

/-- The first frame. -/
def init (payload : Bytes) : Work ε σ τ Unit := do
  let reply ← Work.ask S (.init payload)
  Work.advance reply.stage
  let next ← Work.require .invalidMessage reply.next
  Work.sendPlain S next

/-- The second frame, where the user compares the codes. -/
def showCode (reply : Reply) : Work ε σ τ Unit := do
  if reply.stage ≠ .verificationNeeded then throw .invalidState
  let code ← Work.require .invalidVerification reply.code
  let listener ← Work.require .invalidState (← get).codeListener
  Work.advance reply.stage
  Work.announce (.showCode listener code)

/-- The second frame, where the codes are swapped over the link. -/
def sendCode (cipher : OutOfBand.Cipher) (pendingKey : Option SessionKey) (device : Option Uuid)
    (reply : Reply) : Work ε σ τ Unit := do
  if reply.stage ≠ .oobVerificationNeeded then throw .invalidState
  let code ← Work.require .invalidVerification reply.oobCode
  let encrypted ← Work.sealCode S cipher code
  Work.setKind (.association (.outOfBand cipher (some code)) pendingKey device)
  Work.advance reply.stage
  Work.sendPlain S encrypted

/-- The second frame. -/
def proceed (payload : Bytes) : Work ε σ τ Unit := do
  let reply ← Work.ask S (.proceed payload)
  match (← get).kind with
  | .association (.outOfBand cipher _) pendingKey device =>
    sendCode S cipher pendingKey device reply
  | _ => showCode reply

/-- The code is accepted: the engine agrees on the key, and our identifier is sent under it. -/
def accept : Work ε σ τ Unit := do
  let reply ← Work.ask S .verify
  if reply.stage ≠ .finished then throw .invalidState
  let key ← Work.require .invalidEncryptionKey reply.key
  Work.advance .finished
  Work.setKey key
  match (← get).kind with
  | .association verification _ device =>
    Work.setKind (.association verification (some key) device)
  | .reconnection .. => pure ()
  let uniqueId := S.store.uniqueId (← get).store
  Work.sendSealed S uniqueId.toBytes

/-- The peer's code, which has to be ours. -/
def peerCode (payload : Bytes) : Work ε σ τ Unit := do
  match (← get).kind with
  | .association (.outOfBand cipher (some code)) _ _ =>
    match cipher.decode S.suite payload with
    | .error _ => throw .invalidHandshake
    | .ok peer => if peer = code then accept S else throw .invalidVerification
  | _ => throw .invalidState

/-- The identifier at the start of the last frame, if there is one that names a device. -/
def deviceId? (payload : Bytes) : Option Uuid :=
  (Uuid.ofBytes? (payload.take deviceIdSize)).filter (· ≠ Uuid.nil)

/-- The last frame: the peer's identifier and its challenge secret. The key that waits for this frame is
used up by it. -/
def final (payload : Bytes) : Work ε σ τ Unit := do
  let device ← Work.require .invalidDeviceId (deviceId? payload)
  match (← get).kind with
  | .association verification (some key) former =>
    Work.setKind (.association verification none former)
    Work.saveKey S device key.toBytes
    Work.saveSecret S device (payload.drop deviceIdSize)
    Work.setKind (.association verification none (some device))
    Work.announce (.deviceId device)
    Work.establish
  | _ => throw .invalidEncryptionKey

/-- Deals with the payload of a frame. -/
def handle (payload : Bytes) : Work ε σ τ Unit := do
  match (← get).stage with
  | .unknown => init S payload
  | .inProgress => proceed S payload
  | .oobVerificationNeeded => peerCode S payload
  | .finished => final S payload
  | _ => throw .invalidState

end DevicePairing.Association
