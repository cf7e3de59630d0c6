import DevicePairing.Store

/-!
# Advertisements

A device that waits for another one to come back advertises a fresh salt and the start of the salt's
keyed hash under their challenge secret. A device that holds the same secret can tell that the
advertisement is meant for it, and its first frame has to start with the whole hash.
-/

namespace DevicePairing

/-- An advertisement for one device. -/
structure Advertisement where
  /-- What is advertised: three bytes of the hash, then the salt. -/
  payload : Block 11
  /-- The whole hash, which the device that comes back has to know. -/
  expected : Block 32
  deriving DecidableEq

namespace Advertisement

/-- The length of a salt. -/
def saltSize : Nat := 8

/-- How many bytes of the hash are advertised. -/
def proofSize : Nat := 3

/-- The length of what is advertised. -/
def payloadSize : Nat := 11

/-- A salt filled up to sixteen bytes. -/
def padded (salt : Bytes) : Bytes := salt ++ List.replicate (16 - salt.length) 0

variable {σ : Type} (S : Suite) (store : SecretStore σ)

/-- The hash of a salt under the challenge secret of a device. -/
def response (device : Uuid) (salt : Bytes) (s : σ) : Except StorageError (Block 32) × σ :=
  store.hash S device (padded salt) s

/-- The advertisement with a given salt and its hash. -/
def ofHash (salt : Block saltSize) (hash : Block 32) : Advertisement :=
  ⟨⟨hash.val.take proofSize ++ salt.val, by
    simp [hash.property, salt.property, proofSize, saltSize]⟩, hash⟩

/-- Makes an advertisement for a device. The salt is drawn before the secret is looked up. -/
def create (device : Uuid) (s : σ) (t : Tape) : Except StorageError Advertisement × σ × Tape :=
  let (salt, t) := t.draw saltSize
  match response S store device salt.val s with
  | (.ok hash, s) => (.ok (ofHash salt hash), s, t)
  | (.error e, s) => (.error e, s, t)

/-- Whether an advertisement was made with the secret shared with a device. One of the wrong length
never was. -/
def isFrom (device : Uuid) (payload : Bytes) (s : σ) : Except StorageError Bool × σ :=
  if payload.length ≠ payloadSize then (.ok false, s)
  else
    match response S store device (payload.drop proofSize) s with
    | (.ok hash, s) => (.ok (hash.val.take proofSize == payload.take proofSize), s)
    | (.error e, s) => (.error e, s)

/-- The whole hash that answers an advertisement. -/
def respond (device : Uuid) (payload : Bytes) (s : σ) : Except StorageError (Block 32) × σ :=
  if payload.length ≠ payloadSize then
    (.error (.corrupt s!"advertisement must be 11 bytes, got {payload.length}"), s)
  else response S store device (payload.drop proofSize) s

/-- What a log shows of an advertisement. -/
def redacted (a : Advertisement) : String :=
  let numbers := ", ".intercalate (a.payload.val.map fun b => toString b.toNat)
  s!"ReconnectAdvertisement \x7b payload: [{numbers}], .. \x7d"

end Advertisement

end DevicePairing
