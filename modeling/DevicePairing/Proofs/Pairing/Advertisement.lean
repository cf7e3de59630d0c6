import DevicePairing.Advertisement
import DevicePairing.Proofs.Channel.Challenge
import DevicePairing.Proofs.Channel.Success
import DevicePairing.Proofs.Store.View

/-!
# Advertisements open the gate

An advertisement is three bytes of a salt's hash and then the salt. Whoever holds the same challenge secret
finds the salt in it, comes to the same hash, and so can tell whom it is from and what answers it. The
answer in front of a challenge of one's own is what a channel waits for that was made with the hash.

`Advertisement.invites_create` puts these together, for stores of any two kinds: what `Advertisement.create`
makes is worth to the other device all that `Advertisement.Invites` lists. Only the salt's place, its
padding and the length of the advertised hash have to agree on both sides; the secret, the salt and the
challenge may be any bytes.
-/

namespace DevicePairing

section Stores

variable {σ : Type} {S : Suite} {store : SecretStore σ} {device : Uuid} {secret : Bytes} {s : σ}

/-- A store answers that it holds a challenge secret for a device. -/
def SecretStore.Holds (store : SecretStore σ) (device : Uuid) (secret : Bytes) (s : σ) : Prop :=
  (store.secret device s).1 = .ok (some secret)

/-- What can be read of a challenge secret is held. -/
theorem SecretStore.holds_of_readable
    (h : MemoryStore.readable (store.secret device s).1 = some secret) : store.Holds device secret s :=
  MemoryStore.eq_ok_of_readable h

/-- A store that holds the secret hashes anything under it. -/
theorem SecretStore.hash_of_holds (held : store.Holds device secret s) (value : Bytes) :
    store.hash S device value s = (.ok (S.mac secret value), (store.secret device s).2) := by
  unfold Holds at held
  unfold hash
  rcases hsecret : store.secret device s with ⟨answer, s'⟩
  rw [hsecret] at held
  obtain rfl : answer = .ok (some secret) := held
  rfl

namespace Advertisement

/-! ## What both sides make of an advertisement -/

/-- An advertisement fills its payload. -/
theorem length_ofHash (salt : Block saltSize) (hash : Block 32) :
    (ofHash salt hash).payload.val.length = payloadSize :=
  (ofHash salt hash).payload.property

/-- It begins with the first bytes of the hash. -/
theorem take_ofHash (salt : Block saltSize) (hash : Block 32) :
    (ofHash salt hash).payload.val.take proofSize = hash.val.take proofSize := by
  refine List.take_left' ?_
  rw [List.length_take, hash.property]
  decide

/-- The salt stands behind the start of the hash. -/
theorem drop_ofHash (salt : Block saltSize) (hash : Block 32) :
    (ofHash salt hash).payload.val.drop proofSize = salt.val := by
  refine List.drop_left' ?_
  rw [List.length_take, hash.property]
  decide

/-- Who holds the secret draws a salt, and advertises the hash of it. -/
theorem create_of_holds (held : store.Holds device secret s) (tape : Tape) :
    create S store device s tape =
      (.ok (ofHash (tape.draw saltSize).1 (S.mac secret (padded (tape.draw saltSize).1.val))),
        (store.secret device s).2, (tape.draw saltSize).2) := by
  simp only [create, response, SecretStore.hash_of_holds held]

/-- Who holds the same secret knows the advertisement again. -/
theorem isFrom_of_holds (held : store.Holds device secret s) (salt : Block saltSize) :
    isFrom S store device (ofHash salt (S.mac secret (padded salt.val))).payload.val s =
      (.ok true, (store.secret device s).2) := by
  unfold isFrom
  rw [if_neg (not_not_intro (length_ofHash salt _)), drop_ofHash, response,
    SecretStore.hash_of_holds held, take_ofHash]
  exact congrArg (Except.ok · , _) (beq_self_eq_true _)

/-- It can answer with the whole hash, of which only the beginning was advertised. -/
theorem respond_of_holds (held : store.Holds device secret s) (salt : Block saltSize) :
    respond S store device (ofHash salt (S.mac secret (padded salt.val))).payload.val s =
      (.ok (S.mac secret (padded salt.val)), (store.secret device s).2) := by
  unfold respond
  rw [if_neg (not_not_intro (length_ofHash salt _)), drop_ofHash, response,
    SecretStore.hash_of_holds held]

/-- What has another length than an advertisement is from nobody and is not answered. The store is not
even asked. -/
theorem refused_of_length (store : SecretStore σ) (device : Uuid) (s : σ) {payload : Bytes}
    (other : payload.length ≠ payloadSize) :
    isFrom S store device payload s = (.ok false, s) ∧
      respond S store device payload s =
        (.error (.corrupt s!"advertisement must be 11 bytes, got {payload.length}"), s) := by
  unfold isFrom respond
  rw [if_pos other, if_pos other]
  exact ⟨rfl, rfl⟩

end Advertisement

end Stores

/-! ## The answer at the gate -/

namespace Reconnection

variable {ε σ τ : Type} {S : Setting ε σ τ} {device : Uuid} {expected : Bytes} {c : Channel ε σ τ}

/-- Before a shut gate the right answer and a challenge behind it come in, the store holds a secret, and the
link works: the challenge is hashed under the secret, the hash is written as it is, and the gate is open. -/
theorem Shut.opens (h : Shut device expected c) (phase : c.phase = .handshaking) {secret : Bytes}
    (held : S.store.Holds device secret c.store) {m : DeviceMessage} (plain : m.encrypted = false)
    {challenge : Bytes} (starts : m.payload = expected ++ challenge) {done : List StreamAct} {stream : τ}
    (written : S.stream.write ⟨none, false, (S.suite.mac secret challenge).val⟩ .handshake c.stream =
      (.ok (), done, stream)) :
    (c.call S (.arrived m .handshake)).1.acts =
      [.hashed device challenge (.ok (S.suite.mac secret challenge)),
        .wrote ⟨none, false, (S.suite.mac secret challenge).val⟩ .handshake done (.ok ())] ∧
    (c.call S (.arrived m .handshake)).2.verified = true ∧
    (c.call S (.arrived m .handshake)).2.phase = .handshaking := by
  have hverify := verify_eq (S := S) expected (t := c.turn) (SecretStore.hash_of_holds held challenge) written
  rw [Channel.call_acts, Channel.call_channel, h.serve_frame phase plain, starts, Turn.attempt_eq_settle,
    hverify]
  exact ⟨rfl, rfl, phase⟩

end Reconnection

/-! ## From the advertisement to the open gate -/

variable {ε σ ρ τ : Type}

/-- What an advertisement with a given salt is worth. It was made by a host for a device with which it shares
a challenge secret; `visitor` is the kind of store that the device has. -/
structure Advertisement.Invites (S : Setting ε σ τ) (visitor : SecretStore ρ) (device host : Uuid)
    (secret : Bytes) (salt : Block saltSize) (a : Advertisement) : Prop where
  /-- It is the start of the salt's hash under the secret, and then the salt. -/
  payload : a.payload.val = (S.suite.mac secret (padded salt.val)).val.take 3 ++ salt.val
  /-- It has eleven bytes. -/
  length : a.payload.val.length = 11
  /-- A device that holds the secret sees that it is from the host. -/
  recognised : ∀ r, visitor.Holds host secret r →
    (isFrom S.suite visitor host a.payload.val r).1 = .ok true
  /-- It answers as the host expects. -/
  answered : ∀ r, visitor.Holds host secret r →
    (respond S.suite visitor host a.payload.val r).1 = .ok a.expected
  /-- A channel that expects this answer, with a store that holds the secret and a link that works, gets the
  answer and a challenge behind it: the device is verified, and nothing is written but the hash of its
  challenge, which is not encrypted. -/
  opens : ∀ engine s stream tape, S.store.Holds device secret s →
    ∀ m challenge done stream', m.encrypted = false → m.payload = a.expected.val ++ challenge →
      S.stream.write ⟨none, false, (S.suite.mac secret challenge).val⟩ .handshake stream =
        (.ok (), done, stream') →
      let c := (Channel.reconnection S device (some a.expected.val) engine s stream tape).2
      (c.call S (.arrived m .handshake)).1.acts =
        [.hashed device challenge (.ok (S.suite.mac secret challenge)),
          .wrote ⟨none, false, (S.suite.mac secret challenge).val⟩ .handshake done (.ok ())] ∧
      (c.call S (.arrived m .handshake)).2.verified = true ∧
      (c.call S (.arrived m .handshake)).2.phase = .handshaking

/-- The hash of any salt is an invitation to whoever shares the secret. -/
theorem Advertisement.invites_ofHash (S : Setting ε σ τ) (visitor : SecretStore ρ) (device host : Uuid)
    (secret : Bytes) (salt : Block saltSize) :
    (ofHash salt (S.suite.mac secret (padded salt.val))).Invites S visitor device host secret salt where
  payload := rfl
  length := length_ofHash salt _
  recognised r held := congrArg Prod.fst (isFrom_of_holds held salt)
  answered r held := congrArg Prod.fst (respond_of_holds held salt)
  opens engine s stream tape held m challenge done stream' plain starts written := by
    have hshut : Reconnection.Shut device (S.suite.mac secret (padded salt.val)).val
        (Channel.reconnection S device (some (S.suite.mac secret (padded salt.val)).val) engine s stream
          tape).2 := ⟨rfl, rfl, fun _ => ⟨rfl, rfl⟩⟩
    exact hshut.opens rfl held plain starts written

/-- A host whose store holds a challenge secret for a device makes an advertisement for it, whatever salt it
draws; a device that holds the same secret recognises and answers it, and the answer opens the gate. Bytes
of any other length are never recognised and never answered. -/
theorem Advertisement.invites_create (S : Setting ε σ τ) (visitor : SecretStore ρ) {device : Uuid}
    {secret : Bytes} {s : σ} (held : S.store.Holds device secret s) (host : Uuid) (tape : Tape) :
    (∃ a, create S.suite S.store device s tape =
        (.ok a, (S.store.secret device s).2, (tape.draw saltSize).2) ∧
      a.Invites S visitor device host secret (tape.draw saltSize).1) ∧
    ∀ payload : Bytes, payload.length ≠ 11 → ∀ r,
      isFrom S.suite visitor host payload r = (.ok false, r) ∧
      respond S.suite visitor host payload r =
        (.error (.corrupt s!"advertisement must be 11 bytes, got {payload.length}"), r) :=
  ⟨⟨_, create_of_holds held tape, invites_ofHash S visitor device host secret _⟩,
    fun _ other r => refused_of_length visitor host r other⟩

/-! ## An advertisement for a peer -/

/-- The store of the peer, with the challenge secret that it shares with the owner of the vault on the
bench. -/
def Bench.companion : MemoryStore :=
  let (s, tape) := MemoryStore.ofUniqueId Bench.peer ⟨fun i => i.toUInt8, 32⟩
  (s.saveSecret .standard Bench.Vault.empty.memory.uniqueId (List.replicate 32 2) tape).2.1

/-- The peer recognises an advertisement that was made for it, and comes back with an empty challenge. -/
theorem Advertisement.invites_peer :
    Bench.setting.store.Holds Bench.peer (List.replicate 32 2) Bench.Vault.acquainted ∧
    (MemoryStore.store .standard).Holds Bench.Vault.empty.memory.uniqueId (List.replicate 32 2)
      Bench.companion ∧
    ∃ a, (create .standard Bench.setting.store Bench.peer Bench.Vault.acquainted
        ⟨fun i => i.toUInt8, 0⟩).1 = .ok a ∧
      (isFrom .standard (MemoryStore.store .standard) Bench.Vault.empty.memory.uniqueId a.payload.val
        Bench.companion).1 = .ok true ∧
      (respond .standard (MemoryStore.store .standard) Bench.Vault.empty.memory.uniqueId a.payload.val
        Bench.companion).1 = .ok a.expected ∧
      ((Channel.reconnection Bench.setting Bench.peer (some a.expected.val) ⟨[], [], [], []⟩
        Bench.Vault.acquainted ⟨false⟩ ⟨fun i => i.toUInt8, 8⟩).2.call Bench.setting
          (.arrived ⟨none, false, a.expected.val ++ []⟩ .handshake)).2.verified = true := by
  have held : Bench.setting.store.Holds Bench.peer (List.replicate 32 2) Bench.Vault.acquainted :=
    SecretStore.holds_of_readable (by decide +kernel)
  have heldThere : (MemoryStore.store .standard).Holds Bench.Vault.empty.memory.uniqueId
      (List.replicate 32 2) Bench.companion := SecretStore.holds_of_readable (by decide +kernel)
  obtain ⟨⟨a, hcreate, hinvites⟩, -⟩ := invites_create Bench.setting (MemoryStore.store .standard) held
    Bench.Vault.empty.memory.uniqueId ⟨fun i => i.toUInt8, 0⟩
  refine ⟨held, heldThere, a, congrArg Prod.fst hcreate, hinvites.recognised _ heldThere,
    hinvites.answered _ heldThere, ?_⟩
  exact (hinvites.opens _ _ _ _ held ⟨none, false, a.expected.val ++ []⟩ [] _ _ rfl rfl rfl).2.1

end DevicePairing
