import DevicePairing.Bench
import DevicePairing.Proofs.Channel.Preparation
import DevicePairing.Proofs.Crypto.Cipher

/-!
# What a store holds

A channel sees of a store only answers, and an answer may be an error. `SecretStore.View` is what all the
answers of a well-behaved store are about: the secrets held for each device. To be asked changes none of
them, a save that is accepted changes one secret of one device, and a save that is refused changes
nothing. Statements about what a run leaves in a store are statements about its view.

A store in memory has such a view whenever its cipher opens what it seals, and it keeps it behind the
switches of a vault.
-/

namespace DevicePairing

/-- The secrets held for a device. -/
structure Secrets where
  /-- The key agreed with the device. -/
  key : Option Bytes
  /-- The challenge secret. -/
  secret : Option Bytes
  deriving DecidableEq

/-- What a store holds for each device, and the laws of its operations: to look something up changes
nothing, and to save something either replaces it or leaves everything as it was. -/
structure SecretStore.View {σ : Type} (store : SecretStore σ) where
  /-- The secrets held for each device. -/
  held : σ → Uuid → Secrets
  /-- A key that is looked up is the one held. -/
  key_ok : ∀ {u s v s'}, store.key u s = (.ok v, s') → v = (held s u).key
  /-- To look up a key changes nothing. -/
  held_key : ∀ u s, held (store.key u s).2 = held s
  /-- A challenge secret that is looked up is the one held. -/
  secret_ok : ∀ {u s v s'}, store.secret u s = (.ok v, s') → v = (held s u).secret
  /-- To look up a challenge secret changes nothing. -/
  held_secret : ∀ u s, held (store.secret u s).2 = held s
  /-- A key that is accepted replaces the one before it, and nothing else. -/
  saveKey_ok : ∀ {u key s t s' t'}, store.saveKey u key s t = (.ok (), s', t') →
    ∀ v, held s' v = if v = u then { held s u with key := some key } else held s v
  /-- A key that is refused changes nothing. -/
  saveKey_error : ∀ {u key s t e s' t'}, store.saveKey u key s t = (.error e, s', t') →
    held s' = held s
  /-- A challenge secret that is accepted replaces the one before it, and nothing else. -/
  saveSecret_ok : ∀ {u secret s t s' t'}, store.saveSecret u secret s t = (.ok (), s', t') →
    ∀ v, held s' v = if v = u then { held s u with secret := some secret } else held s v
  /-- A challenge secret that is refused changes nothing. -/
  saveSecret_error : ∀ {u secret s t e s' t'}, store.saveSecret u secret s t = (.error e, s', t') →
    held s' = held s

namespace SecretStore.View

variable {σ : Type} {store : SecretStore σ} (V : store.View)

/-- To look things up changes nothing that is held. -/
theorem held_of_reads {s s' : σ} (h : store.Reads s s') : V.held s' = V.held s := by
  induction h with
  | refl => rfl
  | key device _ ih => rw [V.held_key, ih]
  | secret device _ ih => rw [V.held_secret, ih]

end SecretStore.View

/-! ## Stores in memory -/

namespace MemoryStore

variable {S : Suite}

/-- What an answer says, if it is one. -/
def readable (answer : Except StorageError (Option Bytes)) : Option Bytes :=
  match answer with
  | .ok value => value
  | .error _ => none

variable (S) in
/-- What can be read of what is held for a device. -/
def secrets (s : MemoryStore) (u : Uuid) : Secrets := ⟨readable (s.key S u), readable (s.secret S u)⟩

/-- What a store sealed for itself, it can read. -/
theorem opened_of_sealed (hS : S.Opens) {value bs : Bytes} {s : MemoryStore} {t t' : Tape}
    (h : s.sealed S value t = (.ok bs, t')) : s.opened S (some bs) = .ok (some value) := by
  unfold sealed at h
  rcases hc : s.wrappingKey.encrypt S value t with ⟨_ | sealed, t''⟩
  · rw [hc] at h
    cases h
  · rw [hc] at h
    cases h
    have hopen : s.wrappingKey.decrypt S bs = .ok value :=
      SessionKey.decrypt_encrypt (t := t) hS (by rw [hc])
    unfold opened
    simp only [hopen]

variable (S) in
/-- What a store answers when it is asked for the key and for the challenge secret of a device. -/
def answers (s : MemoryStore) (u : Uuid) :
    Except StorageError (Option Bytes) × Except StorageError (Option Bytes) :=
  (s.key S u, s.secret S u)

/-- What is answered of a device for which something else is held now. -/
theorem answers_insert (s : MemoryStore) (device : Uuid) (holding : Holding) (u : Uuid) :
    answers S { s with devices := s.devices.insert device holding } u =
      if u = device then (s.opened S holding.key, s.opened S holding.secret) else answers S s u := by
  unfold answers key secret held
  dsimp only
  rw [DeviceTable.find?_insert]
  split <;> rfl

/-- A key that was kept is the answer for its device, and no other answer has changed. -/
theorem answers_saveKey (hS : S.Opens) {device : Uuid} {value : Bytes} {s s' : MemoryStore}
    {t t' : Tape} (h : s.saveKey S device value t = (.ok (), s', t')) (u : Uuid) :
    answers S s' u =
      if u = device then (.ok (some value), s.secret S device) else answers S s u := by
  unfold saveKey at h
  rcases hs : s.sealed S value t with ⟨_ | bs, t''⟩
  · rw [hs] at h
    cases h
  · rw [hs] at h
    cases h
    rw [answers_insert, opened_of_sealed hS hs]
    rfl

/-- A challenge secret that was kept is the answer for its device, and no other answer has changed. -/
theorem answers_saveSecret (hS : S.Opens) {device : Uuid} {value : Bytes} {s s' : MemoryStore}
    {t t' : Tape} (h : s.saveSecret S device value t = (.ok (), s', t')) (u : Uuid) :
    answers S s' u =
      if u = device then (s.key S device, .ok (some value)) else answers S s u := by
  unfold saveSecret at h
  split at h
  · cases h
  rcases hs : s.sealed S value t with ⟨_ | bs, t''⟩
  · rw [hs] at h
    cases h
  · rw [hs] at h
    cases h
    rw [answers_insert, opened_of_sealed hS hs]
    rfl

/-- A challenge secret that is kept has the right length. -/
theorem length_of_saveSecret {device : Uuid} {value : Bytes} {s s' : MemoryStore} {t t' : Tape}
    (h : s.saveSecret S device value t = (.ok (), s', t')) : value.length = challengeSecretSize := by
  unfold saveSecret at h
  split at h
  · cases h
  · next hsize => exact Decidable.not_not.1 hsize

variable (S) in
/-- Two states of a store belong to the same device and give the same answers. -/
structure Alike (s s' : MemoryStore) : Prop where
  /-- The owner is the same. -/
  uniqueId : s'.uniqueId = s.uniqueId
  /-- So is every answer. -/
  answers : ∀ u, s'.answers S u = s.answers S u

/-- A state gives the same answers as itself. -/
theorem Alike.refl (s : MemoryStore) : Alike S s s := ⟨rfl, fun _ => rfl⟩

/-- What gives the same answers twice gives the same answers. -/
theorem Alike.trans {s s' s'' : MemoryStore} (h : Alike S s s') (h' : Alike S s' s'') :
    Alike S s s'' :=
  ⟨h'.uniqueId.trans h.uniqueId, fun u => (h'.answers u).trans (h.answers u)⟩

/-- The keys are the same. -/
theorem Alike.key {s s' : MemoryStore} (h : Alike S s s') (u : Uuid) : s'.key S u = s.key S u :=
  congrArg Prod.fst (h.answers u)

/-- The challenge secrets are the same. -/
theorem Alike.secret {s s' : MemoryStore} (h : Alike S s s') (u : Uuid) :
    s'.secret S u = s.secret S u :=
  congrArg Prod.snd (h.answers u)

/-- To look something up changes nothing at all. -/
theorem eq_of_reads {s s' : MemoryStore} (h : (MemoryStore.store S).Reads s s') : s' = s := by
  induction h with
  | refl => rfl
  | key device _ ih => exact ih
  | secret device _ ih => exact ih

/-! What can be read of a device is in the answers about it. -/

/-- What can be read for the device of a key that was kept is the new key and the former secret. -/
theorem secrets_saveKey (hS : S.Opens) {device : Uuid} {value : Bytes} {s s' : MemoryStore}
    {t t' : Tape} (h : s.saveKey S device value t = (.ok (), s', t')) (u : Uuid) :
    secrets S s' u =
      if u = device then { secrets S s device with key := some value } else secrets S s u := by
  show Secrets.mk (readable (answers S s' u).1) (readable (answers S s' u).2) = _
  rw [answers_saveKey hS h u]
  split <;> rfl

/-- What can be read for the device of a secret that was kept is the former key and the new secret. -/
theorem secrets_saveSecret (hS : S.Opens) {device : Uuid} {value : Bytes} {s s' : MemoryStore}
    {t t' : Tape} (h : s.saveSecret S device value t = (.ok (), s', t')) (u : Uuid) :
    secrets S s' u =
      if u = device then { secrets S s device with secret := some value } else secrets S s u := by
  show Secrets.mk (readable (answers S s' u).1) (readable (answers S s' u).2) = _
  rw [answers_saveSecret hS h u]
  split <;> rfl

/-- A key that is refused leaves the store as it was. -/
theorem saveKey_refused {device : Uuid} {value : Bytes} {s s' : MemoryStore} {t t' : Tape}
    {e : StorageError} (h : s.saveKey S device value t = (.error e, s', t')) : s' = s := by
  unfold saveKey at h
  split at h <;> cases h
  rfl

/-- So does a challenge secret that is refused. -/
theorem saveSecret_refused {device : Uuid} {value : Bytes} {s s' : MemoryStore} {t t' : Tape}
    {e : StorageError} (h : s.saveSecret S device value t = (.error e, s', t')) : s' = s := by
  unfold saveSecret at h
  split at h
  · cases h
    rfl
  · split at h <;> cases h
    rfl

/-- A short value can always be sealed. -/
theorem sealed_of_seals (hs : S.Seals) {value : Bytes} (h : value.length < 64) (s : MemoryStore)
    (t : Tape) : ∃ bs t', s.sealed S value t = (.ok bs, t') := by
  obtain ⟨bs, hbs, -⟩ := s.wrappingKey.encrypt_of_seals hs h t
  refine ⟨bs, (t.draw nonceSize).2, ?_⟩
  unfold sealed
  rw [hbs]

/-- A short key is kept. -/
theorem saveKey_of_seals (hs : S.Seals) (device : Uuid) {value : Bytes} (h : value.length < 64)
    (s : MemoryStore) (t : Tape) : ∃ s' t', s.saveKey S device value t = (.ok (), s', t') := by
  obtain ⟨bs, t', hbs⟩ := s.sealed_of_seals hs h t
  unfold saveKey
  rw [hbs]
  exact ⟨_, _, rfl⟩

/-- A challenge secret of the right length is kept. -/
theorem saveSecret_of_seals (hs : S.Seals) (device : Uuid) {value : Bytes}
    (h : value.length = challengeSecretSize) (s : MemoryStore) (t : Tape) :
    ∃ s' t', s.saveSecret S device value t = (.ok (), s', t') := by
  obtain ⟨bs, t', hbs⟩ := s.sealed_of_seals hs (by rw [h]; decide) t
  unfold saveSecret
  rw [if_neg (not_not_intro h), hbs]
  exact ⟨_, _, rfl⟩

/-- What an answer says is what was answered. -/
theorem eq_ok_of_readable {answer : Except StorageError (Option Bytes)} {value : Bytes}
    (h : readable answer = some value) : answer = .ok (some value) := by
  cases answer with
  | error e => cases h
  | ok found => exact congrArg Except.ok h

/-- A key that can be read is found. -/
theorem key_of_secrets {s : MemoryStore} {u : Uuid} {value : Bytes}
    (h : (secrets S s u).key = some value) : s.key S u = .ok (some value) :=
  eq_ok_of_readable h

/-- Under a challenge secret that can be read, everything can be hashed. -/
theorem hash_of_secrets {s : MemoryStore} {u : Uuid} {secret : Bytes}
    (h : (secrets S s u).secret = some secret) (value : Bytes) :
    (MemoryStore.store S).hash S u value s = (.ok (S.mac secret value), s) := by
  have hsecret : s.secret S u = .ok (some secret) := eq_ok_of_readable h
  simp [SecretStore.hash, store, hsecret]

/-- The view of a store in memory. -/
def view (hS : S.Opens) : (MemoryStore.store S).View where
  held := secrets S
  key_ok h := by
    have hkey := congrArg Prod.fst h
    exact (congrArg readable hkey).symm
  held_key _ _ := rfl
  secret_ok h := by
    have hsecret := congrArg Prod.fst h
    exact (congrArg readable hsecret).symm
  held_secret _ _ := rfl
  saveKey_ok h := secrets_saveKey hS h
  saveKey_error h := by rw [saveKey_refused h]
  saveSecret_ok h := secrets_saveSecret hS h
  saveSecret_error h := by rw [saveSecret_refused h]

end MemoryStore

/-! ## Vaults -/

namespace Bench.Vault

variable {S : Suite}

/-- The switches of a vault refuse a key, or it is left to the store inside. -/
theorem memory_of_saveKey {device : Uuid} {value : Bytes} {v v' : Vault} {t t' : Tape}
    {r : Except StorageError Unit} (h : (Vault.store S).saveKey device value v t = (r, v', t')) :
    (∃ e, r = .error e ∧ v' = v) ∨ v.memory.saveKey S device value t = (r, v'.memory, t') := by
  unfold store at h
  dsimp only at h
  split at h
  · cases h
    exact .inl ⟨_, rfl, rfl⟩
  · cases h
    exact .inr rfl

/-- So it is with a challenge secret. -/
theorem memory_of_saveSecret {device : Uuid} {value : Bytes} {v v' : Vault} {t t' : Tape}
    {r : Except StorageError Unit} (h : (Vault.store S).saveSecret device value v t = (r, v', t')) :
    (∃ e, r = .error e ∧ v' = v) ∨ v.memory.saveSecret S device value t = (r, v'.memory, t') := by
  unfold store at h
  dsimp only at h
  split at h
  · cases h
    exact .inl ⟨_, rfl, rfl⟩
  · cases h
    exact .inr rfl

/-- The view of a vault is that of the store inside, whatever the switches say. -/
def view (hS : S.Opens) : (Vault.store S).View where
  held v := MemoryStore.secrets S v.memory
  key_ok {u s v s'} h := by
    have hkey : (if s.readsFail then .error readFailure else s.memory.key S u) = .ok v :=
      congrArg Prod.fst h
    split at hkey
    · cases hkey
    · exact (congrArg MemoryStore.readable hkey).symm
  held_key _ _ := rfl
  secret_ok {u s v s'} h := by
    have hsecret : (if s.readsFail then .error readFailure else s.memory.secret S u) = .ok v :=
      congrArg Prod.fst h
    split at hsecret
    · cases hsecret
    · exact (congrArg MemoryStore.readable hsecret).symm
  held_secret _ _ := rfl
  saveKey_ok h := by
    rcases memory_of_saveKey h with ⟨e, he, -⟩ | h
    · cases he
    · exact MemoryStore.secrets_saveKey hS h
  saveKey_error h := by
    rcases memory_of_saveKey h with ⟨-, -, rfl⟩ | h
    · rfl
    · rw [MemoryStore.saveKey_refused h]
  saveSecret_ok h := by
    rcases memory_of_saveSecret h with ⟨e, he, -⟩ | h
    · cases he
    · exact MemoryStore.secrets_saveSecret hS h
  saveSecret_error h := by
    rcases memory_of_saveSecret h with ⟨-, -, rfl⟩ | h
    · rfl
    · rw [MemoryStore.saveSecret_refused h]

end Bench.Vault

end DevicePairing
