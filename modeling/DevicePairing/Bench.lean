import DevicePairing.Channel.Call
import DevicePairing.Crypto.Suite
import DevicePairing.KeyExchange.Initiator
import DevicePairing.Link
import DevicePairing.Store.Memory

/-!
# The bench

Collaborators for trying things out. Each is the simplest of its kind that can also be told to fail: a link and a
stream that may refuse what they are handed, a store in memory behind switches, and a key exchange engine that
follows a script, so that it may give replies that no honest exchange gives. What a link or a stream has taken is in
the acts of whoever handed it over.

`Bench.setting` puts them together with the primitives in use. `Bench.associating` and `Bench.returning` are channels
that work with them, and the last section has the frames of an honest peer.
-/

namespace DevicePairing.Bench

/-! ## A link and a stream -/

/-- What the sink does with frames: refuses them with an error, or accepts them. -/
structure Sink where
  /-- The error to refuse with, if frames are to be refused. -/
  refusal : Option LinkError
  deriving DecidableEq

/-- The link that does as the sink says. -/
def Sink.frames : FrameSink Sink where
  send _ s :=
    (match s.refusal with
      | none => .ok ()
      | some e => .error e, s)

/-- What the stream does with messages. -/
structure Outlet where
  /-- Whether messages are refused. -/
  refusing : Bool
  deriving DecidableEq

/-- The stream that does as the outlet says. -/
def Outlet.messages : MessageStream Outlet where
  write _ _ s := (if s.refusing then .error (.encode "write refused") else .ok (), [], s)

/-! ## An engine that follows a script -/

/-- The replies still to be given. -/
structure Script where
  /-- To first frames. -/
  init : List (Except ExchangeError Reply)
  /-- To second frames. -/
  proceed : List (Except ExchangeError Reply)
  /-- To requests to agree on a key. -/
  verify : List (Except ExchangeError Reply)
  /-- To proofs of the previous key. -/
  resume : List (Except ExchangeError Reply)

namespace Script

/-- The reply when none is left. -/
def exhausted : Except ExchangeError Reply := .error (.protocol "unscripted call")

/-- The script as an engine. -/
def engine : Engine Script where
  answer
    | .init _, s, t => (s.init.headD exhausted, { s with init := s.init.tail }, t)
    | .proceed _, s, t => (s.proceed.headD exhausted, { s with proceed := s.proceed.tail }, t)
    | .verify, s, t => (s.verify.headD exhausted, { s with verify := s.verify.tail }, t)
    | .resume _ _, s, t => (s.resume.headD exhausted, { s with resume := s.resume.tail }, t)
  setReconnecting _ s := s

end Script

/-! ## A store behind switches -/

/-- A store in memory and what is to fail. -/
structure Vault where
  /-- The store. -/
  memory : MemoryStore
  /-- Whether keys cannot be saved. -/
  keysFail : Bool := false
  /-- Whether challenge secrets cannot be saved. -/
  secretsFail : Bool := false
  /-- Whether nothing can be read. -/
  readsFail : Bool := false

namespace Vault

/-- The error of a save that fails. -/
def saveFailure : StorageError := .corrupt "disk full"

/-- The error of a reading that fails. -/
def readFailure : StorageError := .corrupt "disk gone"

variable (S : Suite)

/-- The vault as a store. -/
def store : SecretStore Vault where
  uniqueId v := v.memory.uniqueId
  key device v := (if v.readsFail then .error readFailure else v.memory.key S device, v)
  saveKey device value v t :=
    if v.keysFail then (.error saveFailure, v, t)
    else
      let (answer, memory, t) := v.memory.saveKey S device value t
      (answer, { v with memory }, t)
  secret device v := (if v.readsFail then .error readFailure else v.memory.secret S device, v)
  saveSecret device value v t :=
    if v.secretsFail then (.error saveFailure, v, t)
    else
      let (answer, memory, t) := v.memory.saveSecret S device value t
      (answer, { v with memory }, t)

end Vault

/-! ## Channels on the bench -/

/-- What a channel on the bench works with. -/
def setting : Setting Script Vault Outlet where
  suite := .standard
  engine := Script.engine
  store := Vault.store .standard
  stream := Outlet.messages

/-- The device at the other end. -/
def peer : Uuid := ⟨⟨List.replicate 16 3, rfl⟩⟩

/-- The key the engine agrees on. -/
def agreedKey : SessionKey := ⟨⟨List.replicate 32 7, rfl⟩⟩

/-- A vault with nothing in it, and nothing that fails. -/
def Vault.empty : Vault := ⟨⟨⟨⟨List.replicate 16 5, rfl⟩⟩, ⟨⟨List.replicate 32 9, rfl⟩⟩, .empty⟩,
  false, false, false⟩

/-- An association that the user confirms. -/
def associating (vault : Vault) : Channel Script Vault Outlet :=
  (Channel.visual
    { init := [.ok { stage := .inProgress, next := some [1] }]
      proceed := [.ok { stage := .verificationNeeded, code := some "123456" }]
      verify := [.ok { stage := .finished, key := some agreedKey }]
      resume := [] }
    vault ⟨false⟩ ⟨fun i => i.toUInt8, 0⟩).2

/-- A vault that holds a key and a challenge secret of the peer. -/
def Vault.acquainted : Vault :=
  let tape : Tape := ⟨fun i => i.toUInt8, 0⟩
  let (_, v, tape) := (Vault.store .standard).saveKey peer (List.replicate 32 1) Vault.empty tape
  ((Vault.store .standard).saveSecret peer (List.replicate 32 2) v tape).2.1

/-- The return of the peer, which need not answer a challenge. -/
def returning (vault : Vault) : Channel Script Vault Outlet :=
  (Channel.reconnection setting peer none
    { init := [.ok { stage := .inProgress, next := some [1] }]
      proceed := [.ok { stage := .resumingSession }]
      verify := []
      resume := [.ok { stage := .finished, next := some [2], key := some agreedKey }] }
    vault ⟨false⟩ ⟨fun i => i.toUInt8, 0⟩).2

/-! ## An honest peer

The two frames of a peer that starts an exchange with the primitives in use, and that always draws the same byte.
The second frame does not depend on what the first one is answered with. -/

/-- The tape of the peer. -/
def peerTape : Tape := ⟨fun _ => 7, 0⟩

/-- The peer before the exchange. -/
def initiator : Initiator := (Initiator.fresh .standard peerTape).1

/-- The first frame of the peer. -/
def commitment : Bytes := (initiator.commit .standard peerTape).1.toOption.getD []

/-- The second frame of the peer. -/
def disclosure : Bytes := (Disclosure.mk initiator.publicKey.val).encode

end DevicePairing.Bench
