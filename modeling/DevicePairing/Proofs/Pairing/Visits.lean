import DevicePairing.Bench
import DevicePairing.Config
import DevicePairing.Proofs.Pairing.Advertisement
import DevicePairing.Proofs.Pairing.Exchange
import DevicePairing.Proofs.Store.View

/-!
# The keys of host and companion agree

However often host and companion meet, every meeting ends with an established channel, and the companion's
key is the channel's key and the one the host has stored for the companion (`keys_agree`). What carries
the induction is `Bonded`: besides the keys, the two devices hold the same challenge secret for each other,
which is what the next meeting begins with. One meeting takes bonded devices to bonded devices
(`associate_bonded`, `reconnect_bonded`), for any primitives that keep the laws of a suite
(`visits_bonded`). That two sides of a Diffie-Hellman exchange agree is the one law that is not proved for
the primitives in use, so `keys_agree` takes the exchange as a parameter, and the cipher as it is.
-/

namespace DevicePairing.Pairing

variable {τ : Type} {S : Suite} {stream : MessageStream τ} {good : τ → Prop}

/-- How a meeting of a companion with the given identifier and challenge secret should end. -/
structure Bonded (S : Suite) (id : Uuid) (secret : Bytes) (v : Visit τ) : Prop where
  /-- The companion goes by its identifier. -/
  companion : v.companion.id = id
  /-- The channel is established. -/
  established : v.channel.phase = .established
  /-- The channel's key is the companion's. -/
  key : v.channel.key = some v.key
  /-- The host has stored both secrets for the companion. -/
  held : MemoryStore.secrets S v.channel.store id = ⟨some v.key.toBytes, some secret⟩
  /-- The companion has stored the challenge secret for the host. -/
  known : (MemoryStore.secrets S v.companion.store v.host).secret = some secret

section Steps

variable {c : Channel Responder MemoryStore τ} {a : Agreement}

/-! ## The end of an association -/

/-- The code is accepted, and the host sends its identifier under the key of the agreement. -/
theorem accept_code (hs : S.Seals) (ho : S.Opens) (takes : stream.Takes good)
    (phase : c.phase = .handshaking) (kind : c.kind = .association .visual none none)
    (stage : c.stage = .verificationNeeded) (fresh : c.key = none) (link : good c.stream)
    (agreed : c.engine.agreement = some a) (awaiting : c.engine.stage = .verificationNeeded) :
    ∃ o sealed r tape s,
      c.call (setting S stream) .accept = (o, { c with
        kind := .association .visual (some (a.sessionKey S)) none
        stage := .finished
        key := some (a.sessionKey S)
        engine := r
        tape := tape
        stream := s }) ∧
      Act.frames o.acts = [⟨none, true, sealed⟩] ∧
      (a.sessionKey S).decrypt S sealed = .ok c.store.uniqueId.toBytes := by
  have asked : (setting S stream).engine.answer .verify c.turn.engine c.turn.tape =
      (.ok { stage := .finished, key := some (a.sessionKey S) }, { c.engine with stage := .finished },
        c.tape) := by
    simp [setting, Responder.engine, Responder.verify_of_agreement (.inl awaiting) agreed]
  have hlength : c.store.uniqueId.toBytes.length < 64 := by
    rw [Uuid.length_toBytes]
    decide
  obtain ⟨sealed, sealing, hsealed⟩ := (a.sessionKey S).encrypt_of_seals hs hlength c.tape
  have hshort : sealed.length ≤ frameLimit := by
    rw [hsealed, Uuid.length_toBytes]
    decide
  obtain ⟨done, s, written, -⟩ := takes ⟨none, true, sealed⟩ c.stream hshort link
  have haccept := Association.accept_eq (S := setting S stream) (t := c.turn) kind asked rfl rfl fresh
    sealing written
  refine ⟨_, sealed, _, _, s, Channel.call_accept phase kind stage haccept, rfl, ?_⟩
  exact SessionKey.decrypt_encrypt ho (congrArg Prod.fst sealing)

/-- The last frame names the device by the bytes it begins with. -/
theorem deviceId?_append {id : Uuid} (named : id ≠ .nil) (secret : Bytes) :
    Association.deviceId? (id.toBytes ++ secret) = some id := by
  have htake : (id.toBytes ++ secret).take Association.deviceIdSize = id.toBytes :=
    List.take_left' (Uuid.length_toBytes id)
  unfold Association.deviceId?
  rw [htake, Uuid.ofBytes?_toBytes]
  simp [Option.filter, named]

variable (stream) in
/-- The companion's identifier and the challenge secret are stored, and the channel is established. -/
theorem deliver_last (hs : S.Seals) (ho : S.Opens) {key : SessionKey} {id : Uuid} {secret last : Bytes}
    (phase : c.phase = .handshaking) (kind : c.kind = .association .visual (some key) none)
    (stage : c.stage = .finished) (hkey : c.key = some key) (named : id ≠ .nil)
    (hsecret : secret.length = challengeSecretSize)
    (opened : key.decrypt S last = .ok (id.toBytes ++ secret)) :
    ∃ o c',
      deliver S stream true last c = (o, c') ∧ c'.phase = .established ∧ c'.key = some key ∧
      MemoryStore.secrets S c'.store id = ⟨some key.toBytes, some secret⟩ := by
  have hshort : key.toBytes.length < 64 := by
    rw [SessionKey.length_toBytes]
    decide
  obtain ⟨s₁, tape₁, keyKept⟩ := MemoryStore.saveKey_of_seals hs id hshort c.store c.tape
  obtain ⟨s₂, tape₂, secretKept⟩ := MemoryStore.saveSecret_of_seals hs id hsecret s₁ tape₁
  have hdrop : (id.toBytes ++ secret).drop Association.deviceIdSize = secret :=
    List.drop_left' (Uuid.length_toBytes id)
  have hfinal := Association.final_eq (S := setting S stream) (t := c.turn) phase kind
    (deviceId?_append named secret) keyKept (by rw [hdrop]; exact secretKept)
  have handled : Turn.handle (setting S stream) (id.toBytes ++ secret) c.turn =
      Association.final (setting S stream) (id.toBytes ++ secret) c.turn := by
    rw [Turn.handle_association _ kind]
    simp [Association.handle, Work.bind_apply, Work.get_apply, stage]
  refine ⟨_, _, Channel.call_sealed phase hkey opened (handled.trans hfinal), rfl, hkey, ?_⟩
  show MemoryStore.secrets S s₂ id = _
  rw [MemoryStore.secrets_saveSecret ho secretKept, if_pos rfl,
    MemoryStore.secrets_saveKey ho keyKept, if_pos rfl]

/-! ## The frames of a reconnection -/

/-- The answer to the advertisement makes the host answer the companion's challenge. -/
theorem deliver_response (takes : stream.Takes good) {id : Uuid} {expected secret : Bytes}
    (challenge : Bytes) (phase : c.phase = .handshaking) (kind : c.kind = .reconnection id (some expected) false)
    (stage : c.stage = .unknown) (link : good c.stream)
    (held : (MemoryStore.secrets S c.store id).secret = some secret) :
    ∃ o s,
      deliver S stream false (expected ++ challenge) c =
        (o, { c with kind := .reconnection id (some expected) true, stream := s }) ∧
      Act.frames o.acts = [⟨none, false, (S.mac secret challenge).val⟩] ∧ good s := by
  obtain ⟨done, s, written, hgood⟩ := takes ⟨none, false, (S.mac secret challenge).val⟩ c.stream
    (Block.length_le_frameLimit _) link
  have hverify := Reconnection.verify_eq (S := setting S stream) expected (t := c.turn)
    (MemoryStore.hash_of_secrets held challenge) written
  have handled : Turn.handle (setting S stream) (expected ++ challenge) c.turn =
      Reconnection.verify (setting S stream) id (some expected) (expected ++ challenge) c.turn := by
    rw [Turn.handle_reconnection _ kind]
    simp [Reconnection.handle, Work.bind_apply, Work.get_apply, stage]
  exact ⟨_, s, Channel.call_plain phase (handled.trans hverify), rfl, hgood⟩

/-- The companion's proof of the former key is answered by the host's, and the next key is stored. -/
theorem deliver_proof (hs : S.Seals) (ho : S.Opens) (takes : stream.Takes good) {id : Uuid}
    {expected : Option Bytes} {key : SessionKey} {secret : Bytes} (phase : c.phase = .handshaking)
    (kind : c.kind = .reconnection id expected true) (stage : c.stage = .resumingSession)
    (fresh : c.key = none) (link : good c.stream) (agreed : c.engine.agreement = some a)
    (awaiting : c.engine.stage = .resumingSession)
    (held : MemoryStore.secrets S c.store id = ⟨some key.toBytes, some secret⟩) :
    ∃ o c',
      deliver S stream false (a.clientProof S key.toBytes) c = (o, c') ∧
      Act.frames o.acts = [⟨none, false, a.serverProof S key.toBytes⟩] ∧
      c'.phase = .established ∧ c'.key = some (a.resumedKey S key.toBytes) ∧
      MemoryStore.secrets S c'.store id =
        ⟨some (a.resumedKey S key.toBytes).toBytes, some secret⟩ := by
  have read : (MemoryStore.store S).key id c.store = (.ok (some key.toBytes), c.store) := by
    have hread := MemoryStore.key_of_secrets (S := S) (congrArg Secrets.key held)
    show (c.store.key S id, c.store) = _
    rw [hread]
  have asked : (setting S stream).engine.answer (.resume (a.clientProof S key.toBytes) key.toBytes)
      c.turn.engine c.turn.tape =
        (.ok { stage := .finished, key := some (a.resumedKey S key.toBytes),
               next := some (a.serverProof S key.toBytes) },
          { c.engine with stage := .finished }, c.tape) := by
    simp [setting, Responder.engine, Responder.resume_of_agreement awaiting agreed]
  have hshort : (a.resumedKey S key.toBytes).toBytes.length < 64 := by
    rw [SessionKey.length_toBytes]
    decide
  obtain ⟨store, tape, kept⟩ := MemoryStore.saveKey_of_seals hs id hshort c.store c.tape
  obtain ⟨done, s, written, -⟩ := takes ⟨none, false, a.serverProof S key.toBytes⟩ c.stream
    (Block.length_le_frameLimit _) link
  have hresume := Reconnection.resume_eq (S := setting S stream) (t := c.turn) phase fresh read asked
    rfl rfl rfl kept written
  have handled : Turn.handle (setting S stream) (a.clientProof S key.toBytes) c.turn =
      Reconnection.resume (setting S stream) id (a.clientProof S key.toBytes) c.turn := by
    rw [Turn.handle_reconnection _ kind]
    simp [Reconnection.handle, Work.bind_apply, Work.get_apply, stage]
  refine ⟨_, _, Channel.call_plain phase (handled.trans hresume), rfl, rfl, rfl, ?_⟩
  show MemoryStore.secrets S store id = _
  rw [MemoryStore.secrets_saveKey ho kept, if_pos rfl, held]

end Steps

/-! ## Advertisements -/

/-- Devices that hold the same challenge secret agree on what answers an advertisement. -/
theorem respond_create {host companion : MemoryStore} {id known : Uuid} {secret : Bytes}
    (held : (MemoryStore.secrets S host id).secret = some secret)
    (held' : (MemoryStore.secrets S companion known).secret = some secret) (tape : Tape) :
    ∃ ad tape', Advertisement.create S (MemoryStore.store S) id host tape = (.ok ad, host, tape') ∧
      Advertisement.respond S (MemoryStore.store S) known ad.payload.val companion =
        (.ok ad.expected, companion) := by
  have hhost : (MemoryStore.store S).Holds id secret host := SecretStore.holds_of_readable held
  have hcompanion : (MemoryStore.store S).Holds known secret companion :=
    SecretStore.holds_of_readable held'
  exact ⟨_, _, Advertisement.create_of_holds hhost tape, Advertisement.respond_of_holds hcompanion _⟩

/-! ## One meeting -/

/-- Devices that meet for the first time bond. -/
theorem associate_bonded (hS : S.Agrees) (ho : S.Opens) (hs : S.Seals) (takes : stream.Takes good)
    (host : Host) {companion : Companion} (named : companion.id ≠ .nil) {secret : Bytes}
    (hsecret : secret.length = challengeSecretSize) (listener : ListenerId) {link : τ}
    (hlink : good link) :
    ∃ v, associate S stream host companion secret listener link = some v ∧
      Bonded S companion.id secret v := by
  -- A name for the fresh channel keeps what becomes of it readable.
  obtain ⟨c, hc⟩ : ∃ c, associating host listener link = c := ⟨_, rfl⟩
  have ready : Ready c false := hc ▸ ⟨rfl, rfl, rfl, rfl, rfl, listener, rfl⟩
  have hstore : c.store = host.store := hc ▸ rfl
  have hstream : good c.stream := hc ▸ hlink
  obtain ⟨i, a, r, s, hostTape, tape, hexchange, hi, hr, hstage, hgood⟩ :=
    exchange_ready hS takes ready hstream companion.tape
  have hawaited : Responder.awaited false a =
      { stage := .verificationNeeded, code := some a.code } := rfl
  rw [hawaited] at hexchange hstage
  have hcode : i.code = .ok a.code := Initiator.read_of_agreement hi _
  have hsession : i.sessionKey S = .ok (a.sessionKey S) := Initiator.read_of_agreement hi _
  obtain ⟨o, sealed, r', tape', s', haccept, hframes, hopened⟩ :=
    accept_code (a := a) (c := { c with
      stage := .verificationNeeded, engine := r, stream := s, tape := hostTape })
      hs ho takes ready.phase ready.purpose.1 rfl ready.key hgood hr hstage
  dsimp only at hopened
  rw [hstore] at hopened
  -- The companion's last frame carries its identifier and the secret it has just stored.
  obtain ⟨store, storeTape, hkept⟩ :=
    MemoryStore.saveSecret_of_seals hs host.store.uniqueId hsecret companion.store tape
  have hlast : (companion.id.toBytes ++ secret).length < 64 := by
    rw [List.length_append, Uuid.length_toBytes, hsecret]
    decide
  obtain ⟨last, hsealed, -⟩ := (a.sessionKey S).encrypt_of_seals hs hlast storeTape
  obtain ⟨o', c', hdeliver, hestablished, hkey, hheld⟩ := deliver_last stream
    (c := { c with
      kind := .association .visual (some (a.sessionKey S)) none
      stage := .finished
      key := some (a.sessionKey S)
      engine := r'
      tape := tape'
      stream := s' }) hs ho ready.phase rfl rfl rfl named hsecret
    (SessionKey.decrypt_encrypt ho (congrArg Prod.fst hsealed))
  refine ⟨⟨c', { companion with store := store, tape := (storeTape.draw nonceSize).2 },
    host.store.uniqueId, a.sessionKey S⟩, ?_, rfl, hestablished, hkey, hheld, ?_⟩
  · unfold associate
    simp [hc, hexchange, hcode, hsession, haccept, hframes, hopened, hkept, hsealed, hdeliver]
  · rw [MemoryStore.secrets_saveSecret ho hkept, if_pos rfl]

/-- Devices that are bonded meet again and stay bonded. -/
theorem reconnect_bonded (hS : S.Agrees) (ho : S.Opens) (hs : S.Seals) (takes : stream.Takes good)
    {m : Meeting τ} (hlink : good m.stream) {id : Uuid} {secret : Bytes} {v : Visit τ}
    (bonded : Bonded S id secret v) :
    ∃ v', reconnect S stream m v = some v' ∧ Bonded S id secret v' := by
  obtain ⟨rfl, -, -, held, known⟩ := bonded
  have hsecret : (MemoryStore.secrets S v.channel.store v.companion.id).secret = some secret :=
    congrArg Secrets.secret held
  obtain ⟨ad, adTape, hcreate, hrespond⟩ := respond_create hsecret known v.channel.tape
  obtain ⟨c, hc⟩ : ∃ c,
    returning S stream ⟨v.channel.store, adTape⟩ v.companion.id ad m.stream = c := ⟨_, rfl⟩
  have hstage : c.stage = .unknown := hc ▸ rfl
  have hphase : c.phase = .handshaking := hc ▸ rfl
  have hfresh : c.key = none := hc ▸ rfl
  have hkind : c.kind = .reconnection v.companion.id (some ad.expected.val) false := hc ▸ rfl
  have hengine : c.engine = { Responder.visual with reconnecting := true } := hc ▸ rfl
  have hstream : good c.stream := hc ▸ hlink
  have hstore : v.channel.store = c.store := hc ▸ rfl
  rw [hstore] at hsecret held
  -- Answering a challenge changes the purpose only, so the exchange starts as on a fresh channel.
  obtain ⟨o₁, s₁, hanswer, hproof, hgood₁⟩ :=
    deliver_response takes m.challenge hphase hkind hstage hstream hsecret
  have ready : Ready { c with
      kind := .reconnection v.companion.id (some ad.expected.val) true, stream := s₁ } true :=
    ⟨hstage, hphase, hfresh, hengine, _, _, rfl⟩
  obtain ⟨i, a, r, s₂, hostTape, tape, hexchange, hi, hr, hwaiting, hgood₂⟩ :=
    exchange_ready hS takes ready hgood₁ v.companion.tape
  have hawaited : Responder.awaited true a = { stage := .resumingSession } := rfl
  rw [hawaited] at hexchange hwaiting
  have hclient : i.proof S v.key.toBytes = .ok (a.clientProof S v.key.toBytes) :=
    Initiator.read_of_agreement hi _
  obtain ⟨o₂, c', hdeliver, hframes, hestablished, hkey, hheld⟩ := deliver_proof (a := a)
    (c := { c with
      kind := .reconnection v.companion.id (some ad.expected.val) true
      stage := .resumingSession
      engine := r
      stream := s₂
      tape := hostTape }) hs ho takes hphase rfl rfl hfresh hgood₂ hr hwaiting held
  refine ⟨⟨c', { v.companion with tape := tape }, v.host, a.resumedKey S v.key.toBytes⟩, ?_, rfl,
    hestablished, hkey, hheld, known⟩
  have hhash := MemoryStore.hash_of_secrets known m.challenge
  have hconfirm := Initiator.confirm_of_agreement (S := S) hi v.key.toBytes
  unfold reconnect
  simp [hcreate, hc, hrespond, hanswer, hproof, hhash, hexchange, hclient, hdeliver, hframes,
    hconfirm]

/-! ## All meetings -/

/-- Devices that are bonded stay so, however often they meet. -/
theorem reconnects_bonded (hS : S.Agrees) (ho : S.Opens) (hs : S.Seals) (takes : stream.Takes good)
    {id : Uuid} {secret : Bytes} (ms : List (Meeting τ)) (hlinks : ∀ m ∈ ms, good m.stream)
    {v : Visit τ} (bonded : Bonded S id secret v) :
    ∃ vs, reconnects S stream ms v = some vs ∧ vs.length = ms.length ∧
      ∀ v ∈ vs, Bonded S id secret v := by
  induction ms generalizing v with
  | nil => exact ⟨[], rfl, rfl, by simp⟩
  | cons m ms ih =>
    obtain ⟨v', hv', bonded'⟩ := reconnect_bonded hS ho hs takes (hlinks m List.mem_cons_self) bonded
    obtain ⟨vs, hvs, hlength, hall⟩ :=
      ih (fun m' hm' => hlinks m' (List.mem_cons_of_mem m hm')) bonded'
    refine ⟨v' :: vs, ?_, by rw [List.length_cons, List.length_cons, hlength], ?_⟩
    · simp [reconnects, hv', hvs]
    · intro w hw
      rcases List.mem_cons.1 hw with rfl | hw
      · exact bonded'
      · exact hall w hw

/-- Devices that bond stay so, however often they meet. -/
theorem visits_bonded (hS : S.Agrees) (ho : S.Opens) (hs : S.Seals) (takes : stream.Takes good)
    (host : Host) {companion : Companion} (named : companion.id ≠ .nil) {secret : Bytes}
    (hsecret : secret.length = challengeSecretSize) (listener : ListenerId) {link : τ}
    (hlink : good link) (meetings : List (Meeting τ)) (hlinks : ∀ m ∈ meetings, good m.stream) :
    ∃ vs, visits S stream host companion secret listener link meetings = some vs ∧
      vs.length = meetings.length + 1 ∧ ∀ v ∈ vs, Bonded S companion.id secret v := by
  obtain ⟨v, hv, bonded⟩ := associate_bonded hS ho hs takes host named hsecret listener hlink
  obtain ⟨vs, hvs, hlength, hall⟩ := reconnects_bonded hS ho hs takes meetings hlinks bonded
  refine ⟨v :: vs, ?_, by rw [List.length_cons, hlength], ?_⟩
  · simp [visits, hv, hvs]
  · intro w hw
    rcases List.mem_cons.1 hw with rfl | hw
    · exact bonded
    · exact hall w hw

/-- Host and companion associate and then meet again any number of times, with the primitives in use and
any Diffie-Hellman exchange on which two sides agree. Every meeting ends with an established channel, and
the key the companion computed is the channel's and the one stored for the companion. -/
theorem keys_agree {publicKey : Block 32 → Block 32} {shared : Block 32 → Block 32 → Block 32}
    (hS : (Suite.standardWith publicKey shared).Agrees) (takes : stream.Takes good) (host : Host)
    (companion : Companion) (named : companion.id ≠ .nil) (secret : Block 32) (listener : ListenerId)
    (link : τ) (hlink : good link) (meetings : List (Meeting τ))
    (hlinks : ∀ m ∈ meetings, good m.stream) :
    ∃ vs, visits (Suite.standardWith publicKey shared) stream host companion secret.val listener link
        meetings = some vs ∧
      vs.length = meetings.length + 1 ∧
      ∀ v ∈ vs, v.channel.phase = .established ∧ v.channel.key = some v.key ∧
        v.channel.store.key (Suite.standardWith publicKey shared) companion.id =
          .ok (some v.key.toBytes) := by
  obtain ⟨vs, hvs, hlength, hall⟩ := visits_bonded hS (Suite.standardWith_opens _ _)
    (Suite.standardWith_seals _ _) takes host named secret.property listener hlink meetings hlinks
  refine ⟨vs, hvs, hlength, fun v hv => ?_⟩
  obtain ⟨-, established, key, held, -⟩ := hall v hv
  exact ⟨established, key, MemoryStore.key_of_secrets (congrArg Secrets.key held)⟩

/-! ## A run -/

/-- A shared secret that is given for two public keys, in either order, and fixed for all others. -/
def sharedBetween (u v secret p q : Block 32) : Block 32 :=
  if (p = u ∧ q = v) ∨ (p = v ∧ q = u) then secret else ⟨List.replicate 32 1, rfl⟩

/-- The order of the public keys does not matter. -/
theorem sharedBetween_comm (u v secret p q : Block 32) :
    sharedBetween u v secret p q = sharedBetween u v secret q p := by
  have hswap : ((p = u ∧ q = v) ∨ (p = v ∧ q = u)) ↔ ((q = u ∧ p = v) ∨ (q = v ∧ p = u)) :=
    ⟨fun h => h.symm.imp And.symm And.symm, fun h => h.symm.imp And.symm And.symm⟩
  unfold sharedBetween
  simp only [hswap]

/-- The shared secret is never zero, if the one that is given is not. -/
theorem sharedBetween_ne_zero {secret : Block 32} (h : secret.val ≠ List.replicate 32 0)
    (u v p q : Block 32) : (sharedBetween u v secret p q).val ≠ List.replicate 32 0 := by
  unfold sharedBetween
  split
  · exact h
  · decide

/-- Two public keys with the curve's shared secret for them, the same for both sides by definition. -/
def between (x y : Block 32) : Block 32 → Block 32 → Block 32 := fun a =>
  sharedBetween (Curve25519.publicKey x) (Curve25519.publicKey y)
    (Curve25519.shared x (Curve25519.publicKey y)) (Curve25519.publicKey a)

/-- So the law for exchanges holds of it, and this is shown without a computation on the curve for other keys.
-/
theorem between_agrees {x y : Block 32}
    (h : (Curve25519.shared x (Curve25519.publicKey y)).val ≠ List.replicate 32 0) :
    (Suite.standardWith Curve25519.publicKey (between x y)).Agrees := by
  intro a b
  unfold Suite.standardWith between
  dsimp only
  constructor
  · exact sharedBetween_comm _ _ _ _ _
  · exact sharedBetween_ne_zero h _ _ _ _

/-- The tape of a host that draws the same byte again and again. -/
def hostTape : Tape := ⟨fun _ => 9, 0⟩

/-- The tape of such a companion. -/
def companionTape : Tape := ⟨fun _ => 7, 0⟩

/-- The primitives for a host and a companion with these tapes. -/
def suite : Suite :=
  Suite.standardWith Curve25519.publicKey (between (companionTape.draw 32).1 (hostTape.draw 32).1)

/-- Three meetings over length-prefixed pipes with the settings of a channel where nothing is said. The
shared secret is the curve's, from whichever side it is computed. -/
theorem keys_agree_over_pipe :
    suite.Agrees ∧ Bench.peer ≠ .nil ∧
      Curve25519.shared (companionTape.draw 32).1 (Curve25519.publicKey (hostTape.draw 32).1) =
        Curve25519.shared (hostTape.draw 32).1 (Curve25519.publicKey (companionTape.draw 32).1) ∧
      ∃ vs, visits suite (LengthStream.messages (Pipe.sink .left))
          ⟨Bench.Vault.empty.memory, hostTape⟩ ⟨Bench.peer, Bench.Vault.empty.memory, companionTape⟩
          (List.replicate 32 2) 0 (.fresh .fresh Config.default.maxMessageSize)
          (List.replicate 2 ⟨.fresh .fresh Config.default.maxMessageSize, [1, 2, 3]⟩) = some vs ∧
        vs.length = 3 ∧
        ∀ v ∈ vs, v.channel.phase = .established ∧ v.channel.key = some v.key ∧
          v.channel.store.key suite Bench.peer = .ok (some v.key.toBytes) := by
  have agrees : suite.Agrees := between_agrees (by decide +kernel)
  have named : Bench.peer ≠ .nil := by decide
  have room : envelopeLimit ≤ Config.default.maxMessageSize := by decide
  refine ⟨agrees, named, by decide +kernel, ?_⟩
  refine keys_agree agrees (LengthStream.takes (Pipe.accepts .left))
    ⟨Bench.Vault.empty.memory, hostTape⟩ ⟨Bench.peer, Bench.Vault.empty.memory, companionTape⟩ named
    ⟨List.replicate 32 2, rfl⟩ 0 (.fresh .fresh Config.default.maxMessageSize) ⟨room, rfl⟩
    (List.replicate 2 ⟨.fresh .fresh Config.default.maxMessageSize, [1, 2, 3]⟩) ?_
  intro m hm
  rw [List.eq_of_mem_replicate hm]
  exact ⟨room, rfl⟩

end DevicePairing.Pairing
