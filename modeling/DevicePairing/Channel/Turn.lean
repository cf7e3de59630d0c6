import DevicePairing.Channel.Basic

/-!
# Turns

Everything a channel does, it does in turns: a call comes in, and until the call is dealt with nothing
else touches the channel. A `Turn` is a channel in the middle of a call, with the acts done so far and
the events that observers will be told of when the turn is over.

The steps of a handshake are `Work`: they change the turn, and may give up with an error code, in which
case what they did before stays done. `Work.bind_apply` unfolds a sequence of steps, and `Turn.attempt`
is where giving up turns into failure of the channel.
-/

namespace DevicePairing

/-- A channel in the middle of a call. -/
structure Turn (ε σ τ : Type) extends Channel ε σ τ where
  /-- What was done so far. -/
  acts : List Act
  /-- What observers will be told. -/
  events : List Event

/-- A step of a handshake: it changes the turn and may give up. -/
abbrev Work (ε σ τ : Type) := ExceptT ErrorCode (StateM (Turn ε σ τ))

variable {ε σ τ : Type}

namespace Work

/-- A sequence of steps ends where the first one gives up. -/
theorem bind_apply {α β : Type} (x : Work ε σ τ α) (f : α → Work ε σ τ β) (t : Turn ε σ τ) :
    (x >>= f) t = match x t with
      | (.ok a, t) => f a t
      | (.error code, t) => (.error code, t) := by
  show (ExceptT.bind x f : StateM (Turn ε σ τ) (Except ErrorCode β)) t = _
  unfold ExceptT.bind ExceptT.mk
  show (StateT.bind x _ : StateM (Turn ε σ τ) (Except ErrorCode β)) t = _
  unfold StateT.bind
  show (match x t with | (a, s) => ExceptT.bindCont f a s) = _
  rcases x t with ⟨_ | _, _⟩ <;> rfl

/-- To do nothing leaves the turn as it is. -/
theorem pure_apply {α : Type} (a : α) (t : Turn ε σ τ) :
    (pure a : Work ε σ τ α) t = (.ok a, t) := rfl

/-- To give up leaves the turn as it is, too. -/
theorem throw_apply {α : Type} (code : ErrorCode) (t : Turn ε σ τ) :
    (throw code : Work ε σ τ α) t = (.error code, t) := rfl

/-- To look at the turn leaves it as it is. -/
theorem get_apply (t : Turn ε σ τ) : (get : Work ε σ τ (Turn ε σ τ)) t = (.ok t, t) := rfl

end Work

namespace Turn

/-- Drops every key and every secret of the handshake. -/
def wipe (t : Turn ε σ τ) : Turn ε σ τ :=
  { t with
    key := none
    kind := match t.kind with
      | .association .visual _ device => .association .visual none device
      | .association (.outOfBand cipher _) _ device =>
        .association (.outOfBand cipher none) none device
      | .reconnection device _ verified => .reconnection device none verified }

/-- Records an act. -/
def note (a : Act) (t : Turn ε σ τ) : Turn ε σ τ := { t with acts := t.acts ++ [a] }

/-- Records what observers will be told. -/
def announce (e : Event) (t : Turn ε σ τ) : Turn ε σ τ := { t with events := t.events ++ [e] }

/-- Gives the handshake up, unless it is over already. -/
def fail (code : ErrorCode) (t : Turn ε σ τ) : Turn ε σ τ :=
  match t.phase.transition (.failed code) with
  | .ok phase => ({ t.wipe with phase }).announce (.failed code)
  | .error _ => t

/-- Does a step of the handshake; if it gives up, so does the channel. -/
def attempt (w : Work ε σ τ Unit) (t : Turn ε σ τ) : Turn ε σ τ :=
  match w t with
  | (.ok _, t) => t
  | (.error code, t) => t.fail code

/-- Writes a message to the stream. -/
def write (S : Setting ε σ τ) (m : DeviceMessage) (op : Operation) (t : Turn ε σ τ) :
    Except StreamError Unit × Turn ε σ τ :=
  let (answer, done, stream) := S.stream.write m op t.stream
  (answer, { t with stream }.note (.wrote m op done answer))

end Turn

/-! ## Steps towards the collaborators -/

namespace Work

variable (S : Setting ε σ τ)

/-- The code with which a handshake is given up when the engine refuses a call: a call out of sequence
stays one, and anything else is a matter of the step. -/
def refusal (call : EngineCall) : ExchangeError → ErrorCode
  | .invalidState _ => .invalidState
  | _ =>
    match call with
    | .verify => .invalidVerification
    | _ => .invalidHandshake

/-- Asks the engine. -/
def ask (call : EngineCall) : Work ε σ τ Reply := fun t =>
  let (answer, engine, tape) := S.engine.answer call t.engine t.tape
  (match answer with
    | .ok reply => .ok reply
    | .error e => .error (refusal call e),
   { t with engine, tape }.note (.asked call answer))

/-- Looks up the key of a device. -/
def readKey (device : Uuid) : Work ε σ τ (Option Bytes) := fun t =>
  let (answer, store) := S.store.key device t.store
  (match answer with
    | .ok key => .ok key
    | .error _ => .error .storage,
   { t with store }.note (.keyRead device answer))

/-- Hashes a challenge under the challenge secret of a device. -/
def hash (device : Uuid) (challenge : Bytes) : Work ε σ τ (Block 32) := fun t =>
  let (answer, store) := S.store.hash S.suite device challenge t.store
  (match answer with
    | .ok hash => .ok hash
    | .error _ => .error .storage,
   { t with store }.note (.hashed device challenge answer))

/-- Has the store keep a key. -/
def saveKey (device : Uuid) (key : Bytes) : Work ε σ τ Unit := fun t =>
  let (answer, store, tape) := S.store.saveKey device key t.store t.tape
  (match answer with
    | .ok _ => .ok ()
    | .error _ => .error .storage,
   { t with store, tape }.note (.keySaved device key answer))

/-- Has the store keep a challenge secret. -/
def saveSecret (device : Uuid) (secret : Bytes) : Work ε σ τ Unit := fun t =>
  let (answer, store, tape) := S.store.saveSecret device secret t.store t.tape
  (match answer with
    | .ok _ => .ok ()
    | .error _ => .error .storage,
   { t with store, tape }.note (.secretSaved device secret answer))

/-- Encrypts a code under the out-of-band cipher. -/
def sealCode (cipher : OutOfBand.Cipher) (code : Bytes) : Work ε σ τ Bytes := fun t =>
  let answer := cipher.encode S.suite code
  (match answer with
    | .ok bs => .ok bs
    | .error _ => .error .invalidHandshake,
   t.note (.codeSealed cipher code answer))

/-- Sends a frame of the handshake as it is. -/
def sendPlain (frame : Bytes) : Work ε σ τ Unit := fun t =>
  match t.write S ⟨none, false, frame⟩ .handshake with
  | (.ok _, t) => (.ok (), t)
  | (.error _, t) => (.error .invalidMessage, t)

/-- Sends a frame of the handshake sealed under the key. -/
def sendSealed (frame : Bytes) : Work ε σ τ Unit := fun t =>
  match t.key with
  | none => (.error .invalidEncryptionKey, t)
  | some key =>
    match key.encrypt S.suite frame t.tape with
    | (.error _, tape) => (.error .invalidEncryptionKey, { t with tape })
    | (.ok sealed, tape) =>
      match { t with tape }.write S ⟨none, true, sealed⟩ .handshake with
      | (.ok _, t) => (.ok (), t)
      | (.error _, t) => (.error .invalidMessage, t)

/-! ## Steps of the channel itself -/

/-- Something that has to be there. -/
def require {α : Type} (code : ErrorCode) : Option α → Work ε σ τ α
  | some a => pure a
  | none => throw code

/-- Goes on to a stage, which may be no step back. -/
def advance (next : Stage) : Work ε σ τ Unit := fun t =>
  if t.stage.admits next then (.ok (), { t with stage := next })
  else (.error .invalidState, t)

/-- Sets the key; a channel that has one gets no other. -/
def setKey (key : SessionKey) : Work ε σ τ Unit := fun t =>
  match t.key with
  | none => (.ok (), { t with key := some key })
  | some _ => (.error .invalidState, t)

/-- Changes what the channel remembers for its kind. -/
def setKind (kind : Kind) : Work ε σ τ Unit := fun t => (.ok (), { t with kind })

/-- Records what observers will be told. -/
def announce (e : Event) : Work ε σ τ Unit := fun t => (.ok (), t.announce e)

/-- Establishes the channel. -/
def establish : Work ε σ τ Unit := fun t =>
  match t.phase.transition .established with
  | .ok phase => (.ok (), { t with phase }.announce .established)
  | .error _ => (.error .invalidState, t)

end Work

end DevicePairing
