import DevicePairing.SessionKey

/-!
# Out-of-band codes

Two devices that can pass a token over some other channel (a tag, a screen) get a cipher for one code in
each direction. The token carries a key and two nonces, written from the reader's point of view: the
nonce the maker decrypts with comes first, because the reader encrypts with it.

`ofToken_token` says that the reader's cipher is the maker's with the directions exchanged, and
`Cipher.decode_encode` that each side opens what the other wrote.
-/

namespace DevicePairing.OutOfBand

/-- Why no out-of-band cipher, or no code, could be had. -/
inductive Error where
  /-- A token of the wrong length; how long it is. -/
  | tokenLength (length : Nat)
  /-- The channel that should carry the token failed. -/
  | channel (reason : String)
  /-- The cipher refused. -/
  | crypto (cause : CryptoError)
  deriving DecidableEq

/-- The wording of a failure. -/
def Error.message : Error → String
  | .tokenLength n => s!"out-of-band data must be 56 bytes, got {n}"
  | .channel reason => s!"out-of-band channel failed: {reason}"
  | .crypto cause => cause.message

/-- A key with one nonce for each direction. -/
structure Cipher where
  /-- The key both sides share. -/
  key : Block 32
  /-- The nonce this side encrypts with. -/
  outward : Block nonceSize
  /-- The nonce this side decrypts with. -/
  inward : Block nonceSize
  deriving DecidableEq

namespace Cipher

/-- The cipher the other side holds. -/
def reversed (c : Cipher) : Cipher := { c with outward := c.inward, inward := c.outward }

/-- What a log shows of a cipher: nothing. -/
def redacted (_ : Cipher) : String := "OobCipher \x7b .. \x7d"

/-- The length of a token. -/
def tokenSize : Nat := 56

/-- The token that hands the other side its cipher. -/
def token (c : Cipher) : Bytes := c.inward.val ++ c.outward.val ++ c.key.val

/-- Every token is as long as a reader of tokens expects. -/
theorem length_token (c : Cipher) : c.token.length = tokenSize := by
  simp [token, c.inward.property, c.outward.property, c.key.property, tokenSize, nonceSize]

/-- A fresh cipher: the key, then the outward and the inward nonce. -/
def fresh (t : Tape) : Cipher × Tape :=
  let (key, t) := t.draw 32
  let (outward, t) := t.draw nonceSize
  let (inward, t) := t.draw nonceSize
  (⟨key, outward, inward⟩, t)

/-- Makes a cipher and pushes its token; without a delivered token there is no cipher. -/
def start (push : Bytes → Except Error Unit) (t : Tape) : Except Error Cipher × Tape :=
  let (c, t) := fresh t
  (match push c.token with
    | .ok _ => .ok c
    | .error e => .error e, t)

/-- The cipher a token hands over: the reader's outward nonce, its inward nonce, the key. -/
def ofToken (bs : Bytes) : Except Error Cipher :=
  if h : bs.length = tokenSize then
    .ok { key := ⟨bs.drop 24, by simp [h, tokenSize]⟩
          outward := ⟨bs.take 12, by simp [h, tokenSize, nonceSize]⟩
          inward := ⟨(bs.drop 12).take 12, by simp [h, tokenSize, nonceSize]⟩ }
  else .error (.tokenLength bs.length)

/-- Whoever reads the token has the same cipher with the two directions the other way round. -/
theorem ofToken_token (c : Cipher) : ofToken c.token = .ok c.reversed := by
  obtain ⟨⟨key, hk⟩, ⟨outward, ho⟩, ⟨inward, hi⟩⟩ := c
  have h12 : inward.length = 12 := hi
  have h12' : outward.length = 12 := ho
  have e1 : (inward ++ outward ++ key).drop 24 = key := by
    rw [List.drop_append]
    simp [h12, h12']
  have e2 : (inward ++ outward ++ key).take 12 = inward := by
    simp [h12]
  have e3 : ((inward ++ outward ++ key).drop 12).take 12 = outward := by
    simp [h12, h12']
  rw [ofToken, dif_pos (length_token _)]
  simp only [token, reversed, e1, e2, e3]

variable (S : Suite)

/-- Encrypts a code for the other side. -/
def encode (c : Cipher) (code : Bytes) : Except Error Bytes :=
  match S.encrypt c.key c.outward code with
  | some bs => .ok bs
  | none => .error (.crypto .encryption)

/-- Decrypts a code from the other side. -/
def decode (c : Cipher) (bs : Bytes) : Except Error Bytes :=
  match S.decrypt c.key c.inward bs with
  | some code => .ok code
  | none => .error (.crypto .authentication)

variable {S}

/-- A code that is encrypted at one end is read at the other, if what is sealed can be opened. -/
theorem decode_encode (hS : S.Opens) {c : Cipher} {code bs : Bytes}
    (h : c.encode S code = .ok bs) : c.reversed.decode S bs = .ok code := by
  unfold encode at h
  cases hc : S.encrypt c.key c.outward code with
  | none => simp [hc] at h
  | some bs' =>
    simp only [hc, Except.ok.injEq] at h
    subst h
    unfold decode reversed
    rw [hS _ _ _ _ hc]

end Cipher

end DevicePairing.OutOfBand
