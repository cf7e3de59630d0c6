import DevicePairing.Json.Reader
import DevicePairing.Json.Writer
import DevicePairing.Store.Memory

/-!
# Snapshots

The image of a store in memory, without its wrapping key and therefore without plain secrets. A snapshot
is a JSON text; a store is restored from one only if every sealed value opens under the wrapping key that
is offered with it.
-/

namespace DevicePairing

/-- The image of a store. -/
structure Snapshot where
  /-- The identifier of the device that owns the store. -/
  uniqueId : Uuid
  /-- What is held for each device. -/
  devices : DeviceTable Holding

namespace Snapshot

/-! ## Text -/

/-- The fields of a secret, which is left out where there is none. -/
def secretField (name : String) : Option Bytes → List (String × Json)
  | some bs => [(name, .ofBytes bs)]
  | none => []

/-- The JSON value of what is held for a device. -/
def secretsToJson (s : Holding) : Json :=
  .ofFields (secretField "encryption_key" s.key ++ secretField "challenge_secret" s.secret)

/-- The JSON value of a snapshot; devices are in increasing order. -/
def toJson (s : Snapshot) : Json :=
  .ofFields [("unique_id", .ofString s.uniqueId.text),
    ("devices", .ofFields (s.devices.entries.map fun e => (e.1.text, secretsToJson e.2)))]

/-- The text of a snapshot. -/
def text (s : Snapshot) : String := s.toJson.pretty

/-- A secret that may be missing or null. -/
def secretOfJson? : Option Json → Option (Option Bytes)
  | none | some .null => some none
  | some v => v.bytes?.map some

/-- What is held for a device, from its JSON value. -/
def secretsOfJson? (v : Json) : Option Holding := do
  let [key, secret] ← v.fields? ["encryption_key", "challenge_secret"] | none
  return ⟨← secretOfJson? key, ← secretOfJson? secret⟩

/-- An entry for a device. -/
def entryOfJson? (m : List TextUnit × Json) : Option (Uuid × Holding) := do
  return (← Uuid.ofChars? (← TextUnit.spell? m.1), ← secretsOfJson? m.2)

/-- The snapshot a JSON value spells. Of several entries for one device the last one counts. -/
def ofJson? (v : Json) : Option Snapshot := do
  let [some uniqueId, some (.object members)] ← v.fields? ["unique_id", "devices"] | none
  return ⟨← Uuid.ofChars? (← uniqueId.chars?), .ofList (← members.mapM entryOfJson?)⟩

/-- Reads a snapshot. -/
def ofText (s : String) : Except StorageError Snapshot :=
  match (Json.parse? s).bind ofJson? with
  | some snapshot => .ok snapshot
  | none => .error .malformed

/-! ## Restoring -/

/-- Tries the sealed values of a device, its key first. -/
def tryEntry (S : Suite) (key : SessionKey) (e : Uuid × Holding) : Except StorageError Unit :=
  match ([e.2.key, e.2.secret].filterMap id).findSome? fun bs =>
      match key.decrypt S bs with
      | .ok _ => none
      | .error cause => some cause with
  | none => .ok ()
  | some cause => .error (.corrupt s!"device {e.1.text}: {cause.message}")

/-- The store with a given image and wrapping key; every sealed value is tried first. -/
def restore (S : Suite) (key : SessionKey) (s : Snapshot) : Except StorageError MemoryStore :=
  match s.devices.entries.forM (tryEntry S key) with
  | .ok _ => .ok ⟨s.uniqueId, key, s.devices⟩
  | .error e => .error e

end Snapshot

/-- The image of a store. -/
def MemoryStore.snapshot (s : MemoryStore) : Snapshot := ⟨s.uniqueId, s.devices⟩

end DevicePairing
