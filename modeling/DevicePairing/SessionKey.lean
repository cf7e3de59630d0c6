import DevicePairing.Crypto.Suite
import DevicePairing.Tape

/-!
# Session keys

A key of thirty-two bytes under which messages and stored secrets are sealed. A sealed text starts with
the nonce it was sealed under, twelve bytes drawn for it alone; the rest is cipher text and tag.

`SessionKey.decrypt_encrypt` is the round trip for any suite whose cipher opens what it seals.
-/

namespace DevicePairing

/-- Why a key or a sealed text is refused. -/
inductive CryptoError where
  /-- The bytes offered as a key are not thirty-two; how many they are. -/
  | keyLength (length : Nat)
  /-- A sealed text is too short to hold its nonce. -/
  | truncated
  /-- The cipher refuses to encrypt a text. -/
  | encryption
  /-- A sealed text was not produced under this key. -/
  | authentication
  deriving DecidableEq

/-- The wording of a refusal. -/
def CryptoError.message : CryptoError → String
  | .keyLength n => s!"key must be 32 bytes, got {n}"
  | .truncated => "ciphertext too short"
  | .encryption => "encryption failed"
  | .authentication => "authentication tag mismatch"

/-- The length of a nonce. -/
def nonceSize : Nat := 12

/-- A key shared by two devices. -/
structure SessionKey where
  /-- The bytes of the key. -/
  octets : Block 32
  deriving DecidableEq

namespace SessionKey

/-- The bytes of a key. -/
def toBytes (key : SessionKey) : Bytes := key.octets.val

/-- A key has thirty-two bytes. -/
@[simp] theorem length_toBytes (key : SessionKey) : key.toBytes.length = 32 := key.octets.property

/-- The key with the given bytes, which must be thirty-two. -/
def ofBytes (bs : Bytes) : Except CryptoError SessionKey :=
  if h : bs.length = 32 then .ok ⟨⟨bs, h⟩⟩ else .error (.keyLength bs.length)

/-- The bytes of a key are the key again. -/
@[simp] theorem ofBytes_toBytes (key : SessionKey) : ofBytes key.toBytes = .ok key := by
  simp [ofBytes, toBytes, key.octets.property]

/-- What a log shows of a key: nothing. -/
def redacted (_ : SessionKey) : String := "SessionKey(..)"

/-- A fresh random key. -/
def fresh (t : Tape) : SessionKey × Tape :=
  let (bs, t) := t.draw 32
  (⟨bs⟩, t)

variable (S : Suite)

/-- The sealed form of a text under a given nonce. -/
def sealWith (key : SessionKey) (nonce : Block nonceSize) (plain : Bytes) :
    Except CryptoError Bytes :=
  match S.encrypt key.octets nonce plain with
  | some cipherText => .ok (nonce.val ++ cipherText)
  | none => .error .encryption

/-- Seals a text under a nonce drawn for it. The nonce is used up even when sealing fails. -/
def encrypt (key : SessionKey) (plain : Bytes) (t : Tape) : Except CryptoError Bytes × Tape :=
  let (nonce, t) := t.draw nonceSize
  (key.sealWith S nonce plain, t)

/-- Opens a sealed text. -/
def decrypt (key : SessionKey) (sealed : Bytes) : Except CryptoError Bytes :=
  if h : nonceSize ≤ sealed.length then
    let nonce : Block nonceSize := ⟨sealed.take nonceSize, by rw [List.length_take]; omega⟩
    match S.decrypt key.octets nonce (sealed.drop nonceSize) with
    | some plain => .ok plain
    | none => .error .authentication
  else .error .truncated

variable {S}

/-- To decrypt is to take off the nonce and to open what stands behind it. -/
theorem decrypt_append (key : SessionKey) (nonce : Block nonceSize) (rest : Bytes) :
    key.decrypt S (nonce.val ++ rest) =
      match S.decrypt key.octets nonce rest with
      | some plain => .ok plain
      | none => .error .authentication := by
  obtain ⟨bs, hbs⟩ := nonce
  have htake : (bs ++ rest).take nonceSize = bs := by simp [← hbs]
  have hdrop : (bs ++ rest).drop nonceSize = rest := by simp [← hbs]
  unfold decrypt
  rw [dif_pos (by simp [hbs])]
  simp only [htake, hdrop]

/-- What a key sealed, it opens. -/
theorem decrypt_of_sealWith (hS : S.Opens) {key : SessionKey} {nonce : Block nonceSize}
    {plain sealed : Bytes} (h : key.sealWith S nonce plain = .ok sealed) :
    key.decrypt S sealed = .ok plain := by
  unfold sealWith at h
  cases hc : S.encrypt key.octets nonce plain with
  | none => simp [hc] at h
  | some cipherText =>
    simp only [hc, Except.ok.injEq] at h
    subst h
    rw [decrypt_append, hS _ _ _ _ hc]

/-- What is encrypted under a key decrypts under it to the same text, whatever nonce was drawn. -/
theorem decrypt_encrypt (hS : S.Opens) {key : SessionKey} {plain sealed : Bytes} {t : Tape}
    (h : (key.encrypt S plain t).1 = .ok sealed) : key.decrypt S sealed = .ok plain :=
  decrypt_of_sealWith hS h

end SessionKey

end DevicePairing
