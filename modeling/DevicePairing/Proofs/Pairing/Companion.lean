import DevicePairing.Advertisement
import DevicePairing.Channel.Call
import DevicePairing.KeyExchange.Initiator
import DevicePairing.KeyExchange.Responder
import DevicePairing.Store.Memory

/-!
# A host and its companion

Two honest devices that meet again and again. The host owns the secure channels: every meeting gets a
channel of its own, with a fresh responder for its engine, over the host's store in memory. The companion
drives the other end with a fresh initiator. When they meet for the first time they associate, and the
user of both accepts the code if it is the same on either side (`associate`). At every later meeting the
host advertises, and the companion answers the advertisement, poses a challenge of its own, and proves
that it holds the key of the meeting before (`reconnect`).

Every frame that the host's stream takes arrives at the companion, and every frame of the companion
arrives at the host's channel, as it is and in order. A device that finds something amiss goes no further,
so `visits` yields nothing unless every check of either side is passed.
-/

namespace DevicePairing

/-- The handshake frames that the stream took, in order. -/
def Act.frames : List Act → List DeviceMessage
  | [] => []
  | .wrote m .handshake _ (.ok _) :: acts => m :: frames acts
  | _ :: acts => frames acts

/-- The verification codes that were to be shown, in order. -/
def Event.codes : List Event → List String
  | [] => []
  | .showCode _ code :: events => code :: codes events
  | _ :: events => codes events

namespace Pairing

/-- The device that owns the channels. -/
structure Host where
  /-- Its secrets. -/
  store : MemoryStore
  /-- The tape it draws from. -/
  tape : Tape

/-- The device that comes to the host. -/
structure Companion where
  /-- Its identifier. -/
  id : Uuid
  /-- Its secrets. -/
  store : MemoryStore
  /-- The tape it draws from. -/
  tape : Tape

/-- What a later meeting is about to find. -/
structure Meeting (τ : Type) where
  /-- The host's stream to the companion. -/
  stream : τ
  /-- The challenge that the companion will pose. -/
  challenge : Bytes

/-- How things stand at the end of a meeting. -/
structure Visit (τ : Type) where
  /-- The host's channel. -/
  channel : Channel Responder MemoryStore τ
  /-- The companion. -/
  companion : Companion
  /-- The identifier that the host gave the companion. -/
  host : Uuid
  /-- The key that the companion computed. -/
  key : SessionKey

variable {τ : Type} (S : Suite) (stream : MessageStream τ)

/-- What the channels of a host work with. -/
def setting : Setting Responder MemoryStore τ where
  suite := S
  engine := Responder.engine S
  store := MemoryStore.store S
  stream := stream

/-- The host's channel for the first meeting. -/
def associating (host : Host) (listener : ListenerId) (link : τ) :
    Channel Responder MemoryStore τ :=
  (Channel.visual Responder.visual host.store link host.tape).2.listen (some listener)

/-- The host's channel for a later meeting, at which the companion has to answer an advertisement. -/
def returning (host : Host) (id : Uuid) (ad : Advertisement) (link : τ) :
    Channel Responder MemoryStore τ :=
  (Channel.reconnection (setting S stream) id (some ad.expected.val) Responder.visual host.store link
    host.tape).2

/-- A handshake frame of the companion arrives at the host's channel. -/
def deliver (encrypted : Bool) (payload : Bytes) (c : Channel Responder MemoryStore τ) :
    Outcome × Channel Responder MemoryStore τ :=
  c.call (setting S stream) (.arrived ⟨none, encrypted, payload⟩ .handshake)

/-- The key exchange, which is the same at every meeting: what the companion's initiator came to, the
codes the host showed, and the host's channel. -/
def exchange (c : Channel Responder MemoryStore τ) (tape : Tape) :
    Option (Initiator × List String × Channel Responder MemoryStore τ × Tape) := do
  let (i, tape) := Initiator.fresh S tape
  let (.ok commitment, i, tape) := i.commit S tape | none
  let (answer, c) := deliver S stream false commitment c
  let [⟨_, false, share⟩] := Act.frames answer.acts | none
  let (.ok disclosure, i) := i.reveal S share | none
  let (shown, c) := deliver S stream false disclosure c
  return (i, Event.codes shown.events, c, tape)

/-- The first meeting. The companion keeps the secret for the host, and hands it over together with its
identifier. -/
def associate (host : Host) (companion : Companion) (secret : Bytes) (listener : ListenerId)
    (link : τ) : Option (Visit τ) := do
  let (i, codes, c, tape) ← exchange S stream (associating host listener link) companion.tape
  let .ok code := i.code | none
  if codes ≠ [code] then none
  let (answer, c) := c.call (setting S stream) .accept
  let [⟨_, true, sealed⟩] := Act.frames answer.acts | none
  let .ok key := i.sessionKey S | none
  let .ok octets := key.decrypt S sealed | none
  let known ← Uuid.ofBytes? octets
  let (.ok _, store, tape) := companion.store.saveSecret S known secret tape | none
  let (.ok last, tape) := key.encrypt S (companion.id.toBytes ++ secret) tape | none
  let (_, c) := deliver S stream true last c
  return ⟨c, { companion with store, tape }, known, key⟩

/-- A later meeting. The companion checks that the host answers its challenge, and both prove that they
hold the key of the meeting before. -/
def reconnect (m : Meeting τ) (v : Visit τ) : Option (Visit τ) := do
  let (.ok ad, store, tape) := Advertisement.create S (MemoryStore.store S) v.companion.id
    v.channel.store v.channel.tape | none
  let c := returning S stream ⟨store, tape⟩ v.companion.id ad m.stream
  let (.ok response, kept) := Advertisement.respond S (MemoryStore.store S) v.host ad.payload.val
    v.companion.store | none
  let (answer, c) := deliver S stream false (response.val ++ m.challenge) c
  let [⟨_, false, proof⟩] := Act.frames answer.acts | none
  let (.ok expected, kept) := (MemoryStore.store S).hash S v.host m.challenge kept | none
  if proof ≠ expected.val then none
  let (i, _, c, tape) ← exchange S stream c v.companion.tape
  let .ok proof := i.proof S v.key.toBytes | none
  let (answer, c) := deliver S stream false proof c
  let [⟨_, false, proof⟩] := Act.frames answer.acts | none
  let .ok key := i.confirm S proof v.key.toBytes | none
  return ⟨c, { v.companion with store := kept, tape }, v.host, key⟩

/-- The later meetings, one after another. -/
def reconnects : List (Meeting τ) → Visit τ → Option (List (Visit τ))
  | [], _ => some []
  | m :: ms, v => do
    let v ← reconnect S stream m v
    let vs ← reconnects ms v
    return v :: vs

/-- All meetings: the first one, and one for each that follows. -/
def visits (host : Host) (companion : Companion) (secret : Bytes) (listener : ListenerId) (link : τ)
    (meetings : List (Meeting τ)) : Option (List (Visit τ)) := do
  let v ← associate S stream host companion secret listener link
  let vs ← reconnects S stream meetings v
  return v :: vs

end Pairing

end DevicePairing
