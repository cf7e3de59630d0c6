import DevicePairing.Crypto.AuthenticatedCipher
import DevicePairing.Crypto.Curve25519
import DevicePairing.Crypto.Sha256

/-!
# Cipher suites

The protocols of this project use four primitives: a digest, a Diffie-Hellman exchange, and an
authenticated cipher in both directions. A `Suite` names them as functions, and everything above is
written for any suite, so that what is proved about a protocol shows exactly which law of a primitive
it needs. Keyed hashing and key derivation are built here from the digest alone.

`Suite.Opens` and `Suite.Agrees` are the two laws. They are propositions and not fields, because the
second one is never proved here for the curve.

`Suite.standard` is the suite in use: SHA-256, X25519 and ChaCha20-Poly1305, as the pairing protocol fixes
them.
-/

namespace DevicePairing

/-- The primitives a protocol is built from. -/
structure Suite where
  /-- The digest of a message. -/
  digest : Bytes → Block 32
  /-- The public key of a secret. -/
  publicKey : Block 32 → Block 32
  /-- The shared secret of a secret and the peer's public key. -/
  shared : Block 32 → Block 32 → Block 32
  /-- Encrypts and authenticates under a key and a nonce; none for a text that is too long. -/
  encrypt : Block 32 → Block 12 → Bytes → Option Bytes
  /-- Checks and decrypts under a key and a nonce. -/
  decrypt : Block 32 → Block 12 → Bytes → Option Bytes

namespace Suite

variable (S : Suite)

/-- What was sealed opens to the same text under the same key and nonce. -/
def Opens : Prop :=
  ∀ key nonce plain sealed, S.encrypt key nonce plain = some sealed →
    S.decrypt key nonce sealed = some plain

/-- Two sides that exchange honest public keys share the same secret, and it is not all zeros. -/
def Agrees : Prop :=
  ∀ a b, S.shared a (S.publicKey b) = S.shared b (S.publicKey a) ∧
    (S.shared a (S.publicKey b)).val ≠ List.replicate 32 0

/-! ## Keyed hashing and key derivation -/

/-- A key brought to the block length of the digest: hashed if longer, then filled with zeros. -/
def macKey (key : Bytes) : Bytes :=
  let short := if key.length ≤ 64 then key else (S.digest key).val
  short ++ List.replicate (64 - short.length) 0

/-- The keyed hash of a message (RFC 2104). -/
def mac (key message : Bytes) : Block 32 :=
  let k := S.macKey key
  let inner := S.digest (k.map (· ^^^ 0x36) ++ message)
  S.digest (k.map (· ^^^ 0x5c) ++ inner.val)

/-- Whether a tag is the keyed hash of a message; a tag of another length never is. -/
def verifyMac (key message tag : Bytes) : Bool := tag == (S.mac key message).val

/-- Thirty-two bytes derived from input key material (RFC 5869): extraction with the salt, then one
block of expansion, which is all that thirty-two bytes take. -/
def derive (salt material info : Bytes) : Block 32 :=
  S.mac (S.mac salt material).val (info ++ [1])

/-! ## The suite in use -/

/-- The primitives every deployed device uses. -/
def standard : Suite where
  digest := Sha256.digest
  publicKey := Curve25519.publicKey
  shared := Curve25519.shared
  encrypt := AuthenticatedCipher.encrypt
  decrypt := AuthenticatedCipher.decrypt

end Suite

end DevicePairing
