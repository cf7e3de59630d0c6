import DevicePairing.Channel.Phase
import DevicePairing.KeyExchange.Stage
import DevicePairing.OutOfBand
import DevicePairing.Registry
import DevicePairing.Store
import DevicePairing.Stream.Basic

/-!
# Secure channels

A channel joins a key exchange engine, a store of secrets and a message stream. Two devices that meet
for the first time associate: a user compares codes, or the codes are compared out of band, and then the
peer hands over its identifier and a challenge secret. Devices that know each other reconnect: the peer
proves that it holds the challenge secret, both agree on a new key with the help of the old one, and the
new key replaces it. From then on messages pass sealed under the key.

This file holds the state of a channel and the vocabulary for what a channel does: `Act`s towards its
collaborators, and `Event`s that its observers are told of. The collaborators are arbitrary: a `Setting`
names an engine, a store and a stream, each with states of its own type.
-/

namespace DevicePairing

/-! ## State -/

/-- How a first association is confirmed. -/
inductive Verification where
  /-- The user compares a code of six digits. -/
  | visual
  /-- The codes are swapped over the link under a cipher whose token went out of band; our own code, once
  it has been sent. -/
  | outOfBand (cipher : OutOfBand.Cipher) (code : Option Bytes)
  deriving DecidableEq

/-- What a channel is for. -/
inductive Kind where
  /-- A first association: the key that waits for the last frame, and the device once it is known. -/
  | association (verification : Verification) (pendingKey : Option SessionKey)
      (device : Option Uuid)
  /-- The return of a known device: what its first frame has to start with, and whether it did. -/
  | reconnection (device : Uuid) (expected : Option Bytes) (verified : Bool)
  deriving DecidableEq

/-- The name of what a channel is for. -/
def Kind.name : Kind → String
  | .association .. => "association"
  | .reconnection .. => "reconnection"

/-- The number an observer of a channel is known by. -/
abbrev CallbackId := Nat

/-- The number a listener for verification codes is known by. -/
abbrev ListenerId := Nat

/-- A channel, with its collaborators' states and the tape it draws from. -/
structure Channel (ε σ τ : Type) where
  /-- What the channel is for. -/
  kind : Kind
  /-- What the handshake has reached. -/
  stage : Stage
  /-- Where the channel is in its life. -/
  phase : Phase
  /-- The key messages are sealed under. -/
  key : Option SessionKey
  /-- The observers. -/
  callbacks : Registry CallbackId
  /-- The listener for verification codes. -/
  codeListener : Option ListenerId
  /-- The state of the key exchange engine. -/
  engine : ε
  /-- The state of the store. -/
  store : σ
  /-- The state of the stream. -/
  stream : τ
  /-- The tape of random bytes. -/
  tape : Tape

/-- What a channel works with. -/
structure Setting (ε σ τ : Type) where
  /-- The primitives. -/
  suite : Suite
  /-- The key exchange engine. -/
  engine : Engine ε
  /-- The store of secrets. -/
  store : SecretStore σ
  /-- The stream. -/
  stream : MessageStream τ

namespace Channel

variable {ε σ τ : Type}

/-- The device at the other end, as far as it is known. -/
def device (c : Channel ε σ τ) : Option Uuid :=
  match c.kind with
  | .association _ _ device => device
  | .reconnection device _ _ => some device

/-- Whether the peer of a reconnection has answered the challenge; never for an association. -/
def verified (c : Channel ε σ τ) : Bool :=
  match c.kind with
  | .association .. => false
  | .reconnection _ _ verified => verified

/-- Whether the channel is established. -/
def isEstablished (c : Channel ε σ τ) : Bool := c.phase = .established

/-- What a log shows of a channel. -/
def redacted (c : Channel ε σ τ) : String :=
  s!"SecureChannel \x7b kind: \"{c.kind.name}\", handshake_state: {c.stage.name}, " ++
    s!"phase: {c.phase.text}, .. \x7d"

end Channel

/-! ## What a channel does -/

/-- Why a channel refuses a message. -/
inductive ChannelError where
  /-- There is no key yet. -/
  | notEstablished
  /-- A message could not be sealed. -/
  | encryption (cause : CryptoError)
  /-- A message could not be opened. -/
  | decryption (cause : CryptoError)
  /-- A message of the peer was not sealed. -/
  | unencryptedMessage
  /-- The stream failed. -/
  | stream (cause : StreamError)
  /-- The channel is closed. -/
  | closed
  /-- The channel has failed. -/
  | failed (code : ErrorCode)
  deriving DecidableEq

/-- The wording of a refusal. -/
def ChannelError.message : ChannelError → String
  | .notEstablished => "secure channel has no encryption key yet"
  | .encryption cause => s!"failed to encrypt message: {cause.message}"
  | .decryption cause => s!"failed to decrypt message: {cause.message}"
  | .unencryptedMessage => "received unencrypted client message"
  | .stream cause => cause.message
  | .closed => "secure channel closed"
  | .failed code => s!"secure channel failed: {code.name}"

/-- What the observers of a channel are told. -/
inductive Event where
  /-- The channel is established. -/
  | established
  /-- The handshake was given up. -/
  | failed (code : ErrorCode)
  /-- A message arrived. -/
  | message (message : DeviceMessage)
  /-- Something that arrived was refused. -/
  | messageError (error : ChannelError)
  /-- The peer of an association is known. -/
  | deviceId (device : Uuid)
  /-- A listener is to show a verification code. -/
  | showCode (listener : ListenerId) (code : String)
  deriving DecidableEq

/-- One thing a channel does towards a collaborator. -/
inductive Act where
  /-- Asks the engine, with its answer. -/
  | asked (call : EngineCall) (answer : Except ExchangeError Reply)
  /-- Tells the engine whether an earlier exchange is resumed. -/
  | reconnectingSet (flag : Bool)
  /-- Looks up the key of a device. -/
  | keyRead (device : Uuid) (answer : Except StorageError (Option Bytes))
  /-- Hashes a challenge under the challenge secret of a device. -/
  | hashed (device : Uuid) (challenge : Bytes) (answer : Except StorageError (Block 32))
  /-- Has the store keep a key. -/
  | keySaved (device : Uuid) (key : Bytes) (answer : Except StorageError Unit)
  /-- Has the store keep a challenge secret. -/
  | secretSaved (device : Uuid) (secret : Bytes) (answer : Except StorageError Unit)
  /-- Writes a message, with what the stream did for it. -/
  | wrote (message : DeviceMessage) (operation : Operation) (done : List StreamAct)
      (answer : Except StreamError Unit)
  /-- Encrypts a code under the out-of-band cipher. -/
  | codeSealed (cipher : OutOfBand.Cipher) (code : Bytes) (answer : Except OutOfBand.Error Bytes)
  /-- Pushes the token of the out-of-band cipher. -/
  | tokenPushed (token : Bytes)
  /-- Begins or stops to listen to the stream. -/
  | listening (flag : Bool)

end DevicePairing
