import DevicePairing.Store
import DevicePairing.Store.Table

/-!
# Stores in memory

A store that keeps every secret sealed under one wrapping key. Keys may have any length; a challenge
secret of the wrong length is refused before anything is drawn or kept.

`find?_saveKey`, `find?_saveSecret` and `find?_forget` say what each change leaves of what is held for
each device.
-/

namespace DevicePairing

/-- What is held for a device: secrets sealed under the wrapping key of the store. -/
structure Holding where
  /-- The key agreed with the device. -/
  key : Option Bytes
  /-- The challenge secret. -/
  secret : Option Bytes
  deriving DecidableEq

/-- Nothing held. -/
def Holding.empty : Holding := ⟨none, none⟩

/-- A store in memory. -/
structure MemoryStore where
  /-- The identifier of the device that owns the store. -/
  uniqueId : Uuid
  /-- The key secrets are sealed under. -/
  wrappingKey : SessionKey
  /-- What is held for each device. -/
  devices : DeviceTable Holding

namespace MemoryStore

/-- An empty store of a given device, with a fresh wrapping key. -/
def ofUniqueId (u : Uuid) (t : Tape) : MemoryStore × Tape :=
  let (key, t) := SessionKey.fresh t
  (⟨u, key, .empty⟩, t)

/-- An empty store of a fresh device: its identifier is drawn first, then the wrapping key. -/
def fresh (t : Tape) : MemoryStore × Tape :=
  let (u, t) := Uuid.fresh t
  ofUniqueId u t

/-- The devices for which something is held, in increasing order. -/
def known (s : MemoryStore) : List Uuid := s.devices.devices

/-- What is held for a device. -/
def held (device : Uuid) (s : MemoryStore) : Holding :=
  (s.devices.find? device).getD .empty

/-- What a log shows of a store. -/
def redacted (s : MemoryStore) : String :=
  s!"InMemorySecretStore \x7b unique_id: {s.uniqueId.text}, devices: {s.devices.entries.length}, .. \x7d"

variable (S : Suite)

/-- Seals a secret. -/
def sealed (value : Bytes) (s : MemoryStore) (t : Tape) : Except StorageError Bytes × Tape :=
  match s.wrappingKey.encrypt S value t with
  | (.ok bs, t) => (.ok bs, t)
  | (.error e, t) => (.error (.sealing e), t)

/-- Opens a sealed secret, where there is one. -/
def opened (value : Option Bytes) (s : MemoryStore) : Except StorageError (Option Bytes) :=
  match value with
  | none => .ok none
  | some bs =>
    match s.wrappingKey.decrypt S bs with
    | .ok plain => .ok (some plain)
    | .error e => .error (.unsealing e)

/-- The key agreed with a device. -/
def key (device : Uuid) (s : MemoryStore) : Except StorageError (Option Bytes) :=
  s.opened S (s.held device).key

/-- The challenge secret of a device. -/
def secret (device : Uuid) (s : MemoryStore) : Except StorageError (Option Bytes) :=
  s.opened S (s.held device).secret

/-- Keeps a key in place of the one before it. -/
def saveKey (device : Uuid) (value : Bytes) (s : MemoryStore) (t : Tape) :
    Except StorageError Unit × MemoryStore × Tape :=
  match s.sealed S value t with
  | (.ok bs, t) =>
    (.ok (), { s with devices := s.devices.insert device { s.held device with key := some bs } }, t)
  | (.error e, t) => (.error e, s, t)

/-- Keeps a challenge secret in place of the one before it. -/
def saveSecret (device : Uuid) (value : Bytes) (s : MemoryStore) (t : Tape) :
    Except StorageError Unit × MemoryStore × Tape :=
  if value.length ≠ challengeSecretSize then (.error (.secretLength value.length), s, t)
  else
    match s.sealed S value t with
    | (.ok bs, t) =>
      (.ok (),
        { s with devices := s.devices.insert device { s.held device with secret := some bs } }, t)
    | (.error e, t) => (.error e, s, t)

/-- Removes all that is held for a device. -/
def forget (device : Uuid) (s : MemoryStore) : MemoryStore :=
  { s with devices := s.devices.erase device }

/-- Stores in memory as stores. -/
def store : SecretStore MemoryStore where
  uniqueId := MemoryStore.uniqueId
  key device s := (s.key S device, s)
  saveKey device value s t := s.saveKey S device value t
  secret device s := (s.secret S device, s)
  saveSecret device value s t := s.saveSecret S device value t

variable {S}

/-- A key that is kept is found with its device, sealed, next to the secret that was there; all other devices
are found as before. -/
theorem find?_saveKey {device : Uuid} {value : Bytes} {s s' : MemoryStore} {t t' : Tape}
    (h : s.saveKey S device value t = (.ok (), s', t')) (u : Uuid) :
    ∃ bs, (s.sealed S value t).1 = .ok bs ∧ s'.devices.find? u =
      if u = device then some { s.held device with key := some bs } else s.devices.find? u := by
  unfold saveKey at h
  rcases hs : s.sealed S value t with ⟨_ | bs, _⟩
  · rw [hs] at h
    cases h
  · rw [hs] at h
    cases h
    exact ⟨bs, rfl, DeviceTable.find?_insert ..⟩

/-- A secret that is kept is found with its device, sealed, next to the key that was there; all other devices
are found as before. -/
theorem find?_saveSecret {device : Uuid} {value : Bytes} {s s' : MemoryStore} {t t' : Tape}
    (h : s.saveSecret S device value t = (.ok (), s', t')) (u : Uuid) :
    ∃ bs, (s.sealed S value t).1 = .ok bs ∧ s'.devices.find? u =
      if u = device then some { s.held device with secret := some bs }
      else s.devices.find? u := by
  unfold saveSecret at h
  split at h
  · cases h
  rcases hs : s.sealed S value t with ⟨_ | bs, _⟩
  · rw [hs] at h
    cases h
  · rw [hs] at h
    cases h
    exact ⟨bs, rfl, DeviceTable.find?_insert ..⟩

/-- A device that is forgotten is not found any more, and all others are found as before. -/
theorem find?_forget (device u : Uuid) (s : MemoryStore) :
    (s.forget device).devices.find? u = if u = device then none else s.devices.find? u :=
  DeviceTable.find?_erase ..

end MemoryStore

end DevicePairing
