import DevicePairing.Channel.Reconnection

/-!
# Calls

What may come in to a channel: messages and errors from its stream, and requests of its owner.
`Channel.call` deals with one of them from begin to end and says what was done, what the observers are to
be told, and how the call is answered.

The rest of this file makes channels and changes who observes them.
-/

namespace DevicePairing

/-- What may come in to a channel. -/
inductive Call where
  /-- The stream delivers a message. -/
  | arrived (message : DeviceMessage) (operation : Operation)
  /-- The stream reports an error. -/
  | streamFailed (error : StreamError)
  /-- The owner sends a message. -/
  | send (message : DeviceMessage)
  /-- The user has accepted the code. -/
  | accept
  /-- The owner closes the channel. -/
  | close

/-- How a call was dealt with. -/
structure Outcome where
  /-- How the call is answered. -/
  answer : Except ChannelError Unit
  /-- What was done. -/
  acts : List Act
  /-- What the observers are to be told, in order. -/
  events : List Event

variable {ε σ τ : Type}

namespace Turn

variable (S : Setting ε σ τ)

/-- Deals with the payload of a handshake frame. -/
def handle (payload : Bytes) : Work ε σ τ Unit := do
  match (← get).kind with
  | .association .. => Association.handle S payload
  | .reconnection device expected verified =>
    Reconnection.handle S device expected verified payload

/-- Takes in a frame of the handshake. Once the handshake is over such frames are passed over. A frame
that is not sealed is dealt with as it is, whether there is a key or not. -/
def takeHandshake (m : DeviceMessage) (t : Turn ε σ τ) : Turn ε σ τ :=
  if t.phase.isHandshaking then
    if m.encrypted then
      match t.key with
      | none => (t.announce (.messageError .notEstablished)).fail .invalidState
      | some key =>
        match key.decrypt S.suite m.payload with
        | .ok payload => t.attempt (handle S payload)
        | .error e => (t.announce (.messageError (.decryption e))).fail .invalidHandshake
    else t.attempt (handle S m.payload)
  else t

/-- Takes in a message of the application. -/
def takeMessage (m : DeviceMessage) (t : Turn ε σ τ) : Turn ε σ τ :=
  match t.phase with
  | .closed => t
  | .failed code => t.announce (.messageError (.failed code))
  | _ =>
    if m.encrypted then
      match t.key with
      | none => t.announce (.messageError .notEstablished)
      | some key =>
        match key.decrypt S.suite m.payload with
        | .ok plain => t.announce (.message (m.withPayload false plain))
        | .error e => t.announce (.messageError (.decryption e))
    else t.announce (.messageError .unencryptedMessage)

/-- Takes in an error of the stream. -/
def takeError (e : StreamError) (t : Turn ε σ τ) : Turn ε σ τ :=
  if t.phase = .closed then t else t.announce (.messageError (.stream e))

/-- Sends a message sealed under the key. Without a key the channel fails. -/
def send (m : DeviceMessage) (t : Turn ε σ τ) : Except ChannelError Unit × Turn ε σ τ :=
  match t.phase with
  | .closed => (.error .closed, t)
  | .failed code => (.error (.failed code), t)
  | _ =>
    match t.key with
    | none => (.error .notEstablished, t.fail .invalidState)
    | some key =>
      match key.encrypt S.suite m.payload t.tape with
      | (.error e, tape) => (.error (.encryption e), { t with tape })
      | (.ok sealed, tape) =>
        match { t with tape }.write S (m.withPayload true sealed) .client with
        | (.ok _, t) => (.ok (), t)
        | (.error e, t) => (.error (.stream e), t)

/-- The user has accepted the code, which only an association that waits for it may be told. -/
def accept (t : Turn ε σ τ) : Turn ε σ τ :=
  if t.phase.isHandshaking then
    match t.kind, t.stage with
    | .association .., .verificationNeeded | .association .., .oobVerificationNeeded =>
      t.attempt (Association.accept S)
    | _, _ => t.fail .invalidState
  else t

/-- Closes the channel, if it is not closed: its secrets are dropped, and nobody is told of anything any
more. -/
def close (t : Turn ε σ τ) : Turn ε σ τ :=
  match t.phase.transition .closed with
  | .ok phase => { t.wipe with phase, callbacks := .empty, codeListener := none }.note (.listening false)
  | .error _ => t

end Turn

namespace Channel

/-- The channel at the start of a call. -/
def turn (c : Channel ε σ τ) : Turn ε σ τ := { c with acts := [], events := [] }

variable (S : Setting ε σ τ)

/-- Deals with a call. -/
def call (i : Call) (c : Channel ε σ τ) : Outcome × Channel ε σ τ :=
  let (answer, t) : Except ChannelError Unit × Turn ε σ τ :=
    match i with
    | .arrived m .handshake => (.ok (), c.turn.takeHandshake S m)
    | .arrived m .client => (.ok (), c.turn.takeMessage S m)
    | .streamFailed e => (.ok (), c.turn.takeError e)
    | .send m => c.turn.send S m
    | .accept => (.ok (), c.turn.accept S)
    | .close => (.ok (), c.turn.close)
  (⟨answer, t.acts, t.events⟩, t.toChannel)

/-! ## Observers -/

/-- Lets an observer join; the answer says whether it was new. -/
def register (id : CallbackId) (c : Channel ε σ τ) : Bool × Channel ε σ τ :=
  let (changed, callbacks) := c.callbacks.register id
  (changed, { c with callbacks })

/-- Lets an observer leave; the answer says whether it was there. -/
def unregister (id : CallbackId) (c : Channel ε σ τ) : Bool × Channel ε σ τ :=
  let (changed, callbacks) := c.callbacks.unregister id
  (changed, { c with callbacks })

/-- Sets or clears the listener for verification codes. -/
def listen (listener : Option ListenerId) (c : Channel ε σ τ) : Channel ε σ τ :=
  { c with codeListener := listener }

/-! ## Making a channel -/

/-- A channel that has done nothing, without observers. -/
def ofKind (kind : Kind) (engine : ε) (store : σ) (stream : τ) (tape : Tape) : Channel ε σ τ :=
  { kind, stage := .unknown, phase := .handshaking, key := none, callbacks := .empty
    codeListener := none, engine, store, stream, tape }

/-- A first association that the user confirms. -/
def visual (engine : ε) (store : σ) (stream : τ) (tape : Tape) : List Act × Channel ε σ τ :=
  ([.listening true], ofKind (.association .visual none none) engine store stream tape)

/-- A first association that is confirmed out of band. The token is pushed first; if that fails there is
no channel. -/
def outOfBand (push : Bytes → Except OutOfBand.Error Unit) (engine : ε) (store : σ) (stream : τ)
    (tape : Tape) : Except OutOfBand.Error (List Act × Channel ε σ τ) :=
  match OutOfBand.Cipher.start push tape with
  | (.error e, _) => .error e
  | (.ok cipher, tape) =>
    .ok ([.tokenPushed cipher.token, .listening true],
      ofKind (.association (.outOfBand cipher none) none none) engine store stream tape)

/-- The return of a device. Without an expected answer to a challenge the peer counts as verified. -/
def reconnection (device : Uuid) (expected : Option Bytes) (engine : ε) (store : σ) (stream : τ)
    (tape : Tape) : List Act × Channel ε σ τ :=
  ([.reconnectingSet true, .listening true],
    ofKind (.reconnection device expected expected.isNone) (S.engine.setReconnecting true engine) store
      stream tape)

end Channel

end DevicePairing
