import DevicePairing.SessionKey
import DevicePairing.Uuid

/-!
# Stores of secrets

For every device a store may hold two secrets: the key agreed with it and a challenge secret, under
which either side proves who it is when the two meet again. `SecretStore` is all that the protocols ask
of a store; how a store keeps its secrets, and when it fails, is left to it.
-/

namespace DevicePairing

/-- Why a store refuses. -/
inductive StorageError where
  /-- A challenge secret of the wrong length; how long it is. -/
  | secretLength (length : Nat)
  /-- No challenge secret is held for a device. -/
  | missingSecret (device : Uuid)
  /-- A secret could not be sealed. -/
  | sealing (cause : CryptoError)
  /-- A sealed secret could not be opened. -/
  | unsealing (cause : CryptoError)
  /-- What the store holds, or was given, makes no sense. -/
  | corrupt (reason : String)
  /-- A text is no snapshot of a store. -/
  | malformed
  deriving DecidableEq

/-- The length of a challenge secret. -/
def challengeSecretSize : Nat := 32

/-- The wording of a refusal. -/
def StorageError.message : StorageError → String
  | .secretLength n => s!"challenge secret must be 32 bytes, got {n}"
  | .missingSecret device => s!"no challenge secret stored for device {device.text}"
  | .sealing cause => s!"failed to seal secret: {cause.message}"
  | .unsealing cause => s!"failed to unseal secret: {cause.message}"
  | .corrupt reason => s!"corrupt store: {reason}"
  | .malformed => "<json>"

/-- A store with states of type `σ`. Its state may change with every question, so it may fail in any
pattern. -/
structure SecretStore (σ : Type) where
  /-- The identifier of the device that owns the store. -/
  uniqueId : σ → Uuid
  /-- The key agreed with a device. -/
  key : Uuid → σ → Except StorageError (Option Bytes) × σ
  /-- Keeps a key in place of the one before it; may draw random bytes. -/
  saveKey : Uuid → Bytes → σ → Tape → Except StorageError Unit × σ × Tape
  /-- The challenge secret of a device. -/
  secret : Uuid → σ → Except StorageError (Option Bytes) × σ
  /-- Keeps a challenge secret in place of the one before it; may draw random bytes. -/
  saveSecret : Uuid → Bytes → σ → Tape → Except StorageError Unit × σ × Tape

/-- The keyed hash of a value under the challenge secret of a device. -/
def SecretStore.hash {σ : Type} (S : Suite) (store : SecretStore σ) (device : Uuid) (value : Bytes)
    (s : σ) : Except StorageError (Block 32) × σ :=
  match store.secret device s with
  | (.ok (some secret), s) => (.ok (S.mac secret value), s)
  | (.ok none, s) => (.error (.missingSecret device), s)
  | (.error e, s) => (.error e, s)

end DevicePairing
