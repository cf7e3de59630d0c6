import DevicePairing.Bytes

/-!
# The ChaCha20 stream cipher

The block function and the key stream of RFC 8439, section 2.3 and 2.4. Encrypting and decrypting are
the same exclusive or with the key stream.
-/

namespace DevicePairing.ChaCha20

/-- The sixteen words of the cipher state. -/
abbrev Words := Vector UInt32 16

/-- A 32-bit word turned left by `n` places. -/
def rotateLeft (x : UInt32) (n : UInt32) : UInt32 := (x <<< n) ||| (x >>> (32 - n))

/-- The quarter round on the four words at the given places. -/
def quarterRound (s : Words) (i j k l : Fin 16) : Words :=
  let a := s[i] + s[j]
  let d := rotateLeft (s[l] ^^^ a) 16
  let c := s[k] + d
  let b := rotateLeft (s[j] ^^^ c) 12
  let a := a + b
  let d := rotateLeft (d ^^^ a) 8
  let c := c + d
  let b := rotateLeft (b ^^^ c) 7
  (((s.set i a).set j b).set k c).set l d

/-- Four column rounds and four diagonal rounds. -/
def doubleRound (s : Words) : Words :=
  let s := quarterRound s 0 4 8 12
  let s := quarterRound s 1 5 9 13
  let s := quarterRound s 2 6 10 14
  let s := quarterRound s 3 7 11 15
  let s := quarterRound s 0 5 10 15
  let s := quarterRound s 1 6 11 12
  let s := quarterRound s 2 7 8 13
  quarterRound s 3 4 9 14

/-- The state before the rounds: constants, key, block counter, nonce. -/
def initial (key : Block 32) (counter : Nat) (nonce : Block 12) : Words :=
  let word (bs : Bytes) (i : Nat) := UInt32.ofNat (ofLittleEndian ((bs.drop (4 * i)).take 4))
  let k := word key.val
  let n := word nonce.val
  #v[0x61707865, 0x3320646e, 0x79622d32, 0x6b206574,
    k 0, k 1, k 2, k 3, k 4, k 5, k 6, k 7, UInt32.ofNat counter, n 0, n 1, n 2]

/-- The words as bytes, least significant first. -/
def serialize (s : Words) : Bytes := s.toList.flatMap fun w => littleEndian 4 w.toNat

/-- The words of a state make sixty-four bytes. -/
@[simp] theorem length_serialize (s : Words) : (serialize s).length = 64 := by
  simp [serialize, List.length_flatMap, List.map_const']

/-- One block of sixty-four key stream bytes. -/
def block (key : Block 32) (counter : Nat) (nonce : Block 12) : Bytes :=
  let start := initial key counter nonce
  let mixed := (List.range 10).foldl (fun s _ => doubleRound s) start
  serialize (start.zipWith (· + ·) mixed)

/-- So a block of the key stream has sixty-four bytes, whatever the key, the counter and the nonce are. -/
theorem length_block (key : Block 32) (counter : Nat) (nonce : Block 12) :
    (block key counter nonce).length = 64 := by
  simp [block]

/-- The data combined with the key stream, block `counter` first. -/
def xorStream (key : Block 32) (nonce : Block 12) (counter : Nat) (data : Bytes) : Bytes :=
  ((chunksOf 64 data).zipIdx counter).flatMap fun piece =>
    List.zipWith (· ^^^ ·) piece.1 (block key piece.2 nonce)

end DevicePairing.ChaCha20
