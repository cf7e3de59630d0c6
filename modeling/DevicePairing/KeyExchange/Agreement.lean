import DevicePairing.Cbor.Record
import DevicePairing.KeyExchange.Stage

/-!
# The agreement of two sides

The three frames of the exchange, and what both sides hold once each has the other's public key: the
shared secret, the digest of all frames so far, and a string derived from the two that authenticates
the exchange. Codes, keys and proofs are all derived from these.

`derive_comm` says that two sides that saw the same frames reach the same agreement.
-/

namespace DevicePairing

/-- The first frame: a commitment to a public key. -/
structure Commitment where
  /-- The digest of the public key. -/
  commitment : Bytes
  /-- Random bytes. -/
  random : Bytes
  deriving DecidableEq

/-- The answer to the first frame. -/
structure KeyShare where
  /-- The public key of the answering side. -/
  publicKey : Bytes
  /-- Random bytes. -/
  random : Bytes
  deriving DecidableEq

/-- The second frame of the first side: the public key it committed to. -/
structure Disclosure where
  /-- The public key. -/
  publicKey : Bytes
  deriving DecidableEq

namespace Commitment

/-- The columns of the frame. -/
def columns : Cbor.Columns := [("commitment", .bytes), ("random", .bytes)]

/-- The row of a frame. -/
def toRow (f : Commitment) : Cbor.Row columns := (f.commitment, f.random, ())

/-- The bytes of a frame. -/
def encode (f : Commitment) : Bytes := Cbor.Row.write columns f.toRow

/-- The frame that bytes hold. -/
def decode? (bs : Bytes) : Option Commitment :=
  match Cbor.Row.decode? columns bs with
  | some (commitment, random, _) => some ⟨commitment, random⟩
  | none => none

end Commitment

namespace KeyShare

/-- The columns of the frame. -/
def columns : Cbor.Columns := [("public_key", .bytes), ("random", .bytes)]

/-- The row of a frame. -/
def toRow (f : KeyShare) : Cbor.Row columns := (f.publicKey, f.random, ())

/-- The bytes of a frame. -/
def encode (f : KeyShare) : Bytes := Cbor.Row.write columns f.toRow

/-- The frame that bytes hold. -/
def decode? (bs : Bytes) : Option KeyShare :=
  match Cbor.Row.decode? columns bs with
  | some (publicKey, random, _) => some ⟨publicKey, random⟩
  | none => none

end KeyShare

namespace Disclosure

/-- The columns of the frame. -/
def columns : Cbor.Columns := [("public_key", .bytes)]

/-- The row of a frame. -/
def toRow (f : Disclosure) : Cbor.Row columns := (f.publicKey, ())

/-- The bytes of a frame. -/
def encode (f : Disclosure) : Bytes := Cbor.Row.write columns f.toRow

/-- The frame that bytes hold. -/
def decode? (bs : Bytes) : Option Disclosure :=
  match Cbor.Row.decode? columns bs with
  | some (publicKey, _) => some ⟨publicKey⟩
  | none => none

end Disclosure

/-- What both sides hold once the public keys are exchanged. -/
structure Agreement where
  /-- The shared secret. -/
  shared : Block 32
  /-- The digest of the frames exchanged. -/
  salt : Block 32
  /-- The string that authenticates the exchange. -/
  auth : Block 32
  deriving DecidableEq

namespace Agreement

variable (S : Suite)

/-- What one side reaches with its secret, the peer's public key and the frames exchanged. -/
def derive (secret : Block 32) (peer transcript : Bytes) : Except ExchangeError Agreement :=
  match Block.ofBytes? 32 peer with
  | none => .error (.publicKeyLength peer.length)
  | some peer =>
    let shared := S.shared secret peer
    if shared.val = List.replicate 32 0 then .error .nonContributory
    else
      let salt := S.digest transcript
      .ok ⟨shared, salt, S.derive salt.val shared.val (ascii "companion auth string")⟩

/-- The code of six decimal digits that the user compares. -/
def code (a : Agreement) : String :=
  let digits := Nat.toDigits 10 (ofBigEndian (a.auth.val.take 4) % 1000000)
  String.ofList (List.replicate (6 - digits.length) '0' ++ digits)

/-- The code to compare out of band. -/
def oobCode (a : Agreement) : Bytes := a.auth.val

/-- The key of a first exchange. -/
def sessionKey (a : Agreement) : SessionKey :=
  ⟨S.derive a.salt.val a.shared.val (ascii "companion session key")⟩

/-- The key of an exchange that resumes an earlier one. -/
def resumedKey (a : Agreement) (previousKey : Bytes) : SessionKey :=
  ⟨S.derive a.auth.val (previousKey ++ a.shared.val) (ascii "companion resumed key")⟩

/-- The first side's proof that it holds the previous key. -/
def clientProof (a : Agreement) (previousKey : Bytes) : Bytes :=
  (S.mac previousKey (ascii "CLIENT" ++ a.auth.val)).val

/-- The second side's proof that it holds the previous key. -/
def serverProof (a : Agreement) (previousKey : Bytes) : Bytes :=
  (S.mac previousKey (ascii "SERVER" ++ a.auth.val)).val

variable {S}

/-- Two sides with honest public keys and the same frames agree. -/
theorem derive_comm (hS : S.Agrees) (a b : Block 32) (transcript : Bytes) :
    derive S a (S.publicKey b).val transcript = derive S b (S.publicKey a).val transcript ∧
      ∃ g, derive S a (S.publicKey b).val transcript = .ok g := by
  obtain ⟨hcomm, hne⟩ := hS a b
  have hl : derive S a (S.publicKey b).val transcript
      = .ok ⟨S.shared a (S.publicKey b), S.digest transcript,
        S.derive (S.digest transcript).val (S.shared a (S.publicKey b)).val
          (ascii "companion auth string")⟩ := by
    unfold derive
    rw [Block.ofBytes?_val]
    exact if_neg hne
  have hr : derive S b (S.publicKey a).val transcript
      = .ok ⟨S.shared b (S.publicKey a), S.digest transcript,
        S.derive (S.digest transcript).val (S.shared b (S.publicKey a)).val
          (ascii "companion auth string")⟩ := by
    unfold derive
    rw [Block.ofBytes?_val]
    exact if_neg (hcomm ▸ hne)
  exact ⟨by rw [hl, hr, hcomm], _, hl⟩

end Agreement

end DevicePairing
