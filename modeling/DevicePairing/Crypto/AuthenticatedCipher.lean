import DevicePairing.Crypto.ChaCha20

/-!
# ChaCha20-Poly1305

The Poly1305 authenticator of RFC 8439, section 2.5, is a one-time tag: a polynomial in the clamped half of the key,
evaluated modulo `2 ^ 130 - 5`, plus the other half. With the ChaCha20 key stream it makes authenticated encryption
as in section 2.8, with no associated data. A sealed text is the cipher text followed by a tag of sixteen bytes. Both
directions refuse texts of `2 ^ 32 - 1` blocks or more, which the block counter could not number.
-/

namespace DevicePairing.Poly1305

/-- The prime `2 ^ 130 - 5`. -/
def prime : Nat := 4 * capacity 16 - 5

/-- Clears the bits of the multiplier that the standard wants clear. -/
def clamp (r : Nat) : Nat := r &&& 0x0ffffffc0ffffffc0ffffffc0fffffff

/-- The coefficient of one piece of at most sixteen bytes: its number with a one bit on top. -/
def coefficient (piece : Bytes) : Nat := ofLittleEndian piece + capacity piece.length

/-- The tag of a message under a one-time key. -/
def tag (key : Block 32) (message : Bytes) : Block 16 :=
  let r := clamp (ofLittleEndian (key.val.take 16))
  let s := ofLittleEndian (key.val.drop 16)
  let sum := (chunksOf 16 message).foldl (fun acc piece => (acc + coefficient piece) * r % prime) 0
  ⟨littleEndian 16 (sum + s), length_littleEndian ..⟩

end DevicePairing.Poly1305

namespace DevicePairing.AuthenticatedCipher

/-- The count of blocks of sixty-four bytes from which the cipher refuses a text. -/
def blockLimit : Nat := capacity 4 - 1

/-- The length of a tag. -/
def tagSize : Nat := 16

/-- Zeros that bring a string of `n` bytes to a multiple of sixteen. -/
def filler (n : Nat) : Bytes := List.replicate ((16 - n % 16) % 16) 0

/-- The one-time authenticator key: the first half of key stream block zero. -/
def oneTimeKey (key : Block 32) (nonce : Block 12) : Block 32 :=
  ⟨(ChaCha20.block key 0 nonce).take 32, by simp [ChaCha20.length_block]⟩

/-- The tag of a cipher text. -/
def tagOf (key : Block 32) (nonce : Block 12) (cipherText : Bytes) : Block 16 :=
  Poly1305.tag (oneTimeKey key nonce)
    (cipherText ++ filler cipherText.length ++ littleEndian 8 0 ++ littleEndian 8 cipherText.length)

/-- Encrypts and authenticates; none when the text is too long. -/
def encrypt (key : Block 32) (nonce : Block 12) (plain : Bytes) : Option Bytes :=
  if plain.length / 64 < blockLimit then
    let cipherText := ChaCha20.xorStream key nonce 1 plain
    some (cipherText ++ (tagOf key nonce cipherText).val)
  else none

/-- Checks the tag and decrypts; none when the tag is missing or wrong, or the text too long. -/
def decrypt (key : Block 32) (nonce : Block 12) (sealed : Bytes) : Option Bytes :=
  let size := sealed.length - tagSize
  let cipherText := sealed.take size
  if tagSize ≤ sealed.length ∧ size / 64 < blockLimit ∧
      sealed.drop size = (tagOf key nonce cipherText).val then
    some (ChaCha20.xorStream key nonce 1 cipherText)
  else none

end DevicePairing.AuthenticatedCipher
