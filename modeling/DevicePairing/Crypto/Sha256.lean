import DevicePairing.Bytes

/-!
# SHA-256

The digest of FIPS 180-4 over byte strings. The message schedule is kept as a window of sixteen words
that slides by one word a round, so no word list of length sixty-four is ever built.

`length_pad_mod` says that padding fills whole blocks. Security of the digest is not a subject of
this project.
-/

namespace DevicePairing.Sha256

/-- A 32-bit word turned right by `n` places. -/
def rotateRight (x : UInt32) (n : UInt32) : UInt32 := (x >>> n) ||| (x <<< (32 - n))

/-- The eight working words of the compression function. -/
structure Chain where
  /-- Word zero. -/
  a : UInt32
  /-- Word one. -/
  b : UInt32
  /-- Word two. -/
  c : UInt32
  /-- Word three. -/
  d : UInt32
  /-- Word four. -/
  e : UInt32
  /-- Word five. -/
  f : UInt32
  /-- Word six. -/
  g : UInt32
  /-- Word seven. -/
  h : UInt32
  deriving DecidableEq

/-- The initial chain: the fractional parts of the square roots of the first eight primes. -/
def Chain.initial : Chain :=
  ⟨0x6a09e667, 0xbb67ae85, 0x3c6ef372, 0xa54ff53a, 0x510e527f, 0x9b05688c, 0x1f83d9ab, 0x5be0cd19⟩

/-- The round constants: the fractional parts of the cube roots of the first sixty-four primes. -/
def roundConstants : List UInt32 :=
  [0x428a2f98, 0x71374491, 0xb5c0fbcf, 0xe9b5dba5, 0x3956c25b, 0x59f111f1, 0x923f82a4, 0xab1c5ed5,
   0xd807aa98, 0x12835b01, 0x243185be, 0x550c7dc3, 0x72be5d74, 0x80deb1fe, 0x9bdc06a7, 0xc19bf174,
   0xe49b69c1, 0xefbe4786, 0x0fc19dc6, 0x240ca1cc, 0x2de92c6f, 0x4a7484aa, 0x5cb0a9dc, 0x76f988da,
   0x983e5152, 0xa831c66d, 0xb00327c8, 0xbf597fc7, 0xc6e00bf3, 0xd5a79147, 0x06ca6351, 0x14292967,
   0x27b70a85, 0x2e1b2138, 0x4d2c6dfc, 0x53380d13, 0x650a7354, 0x766a0abb, 0x81c2c92e, 0x92722c85,
   0xa2bfe8a1, 0xa81a664b, 0xc24b8b70, 0xc76c51a3, 0xd192e819, 0xd6990624, 0xf40e3585, 0x106aa070,
   0x19a4c116, 0x1e376c08, 0x2748774c, 0x34b0bcb5, 0x391c0cb3, 0x4ed8aa4a, 0x5b9cca4f, 0x682e6ff3,
   0x748f82ee, 0x78a5636f, 0x84c87814, 0x8cc70208, 0x90befffa, 0xa4506ceb, 0xbef9a3f7, 0xc67178f2]

/-- One round: mixes a round constant and a schedule word into the chain. -/
def Chain.round (s : Chain) (k w : UInt32) : Chain :=
  let s1 := rotateRight s.e 6 ^^^ rotateRight s.e 11 ^^^ rotateRight s.e 25
  let choice := (s.e &&& s.f) ^^^ ((~~~ s.e) &&& s.g)
  let t1 := s.h + s1 + choice + k + w
  let s0 := rotateRight s.a 2 ^^^ rotateRight s.a 13 ^^^ rotateRight s.a 22
  let majority := (s.a &&& s.b) ^^^ (s.a &&& s.c) ^^^ (s.b &&& s.c)
  ⟨t1 + (s0 + majority), s.a, s.b, s.c, s.d + t1, s.e, s.f, s.g⟩

/-- The schedule word that follows a window of sixteen. -/
def nextWord (window : List UInt32) : UInt32 :=
  let x := window.getD 1 0
  let y := window.getD 14 0
  let s0 := rotateRight x 7 ^^^ rotateRight x 18 ^^^ (x >>> 3)
  let s1 := rotateRight y 17 ^^^ rotateRight y 19 ^^^ (y >>> 10)
  s1 + window.getD 9 0 + s0 + window.getD 0 0

/-- Runs one round per constant, the window of schedule words sliding along. -/
def rounds : (constants : List UInt32) → (window : List UInt32) → Chain → Chain
  | k :: ks, w :: ws, s => rounds ks (ws ++ [nextWord (w :: ws)]) (s.round k w)
  | _, _, s => s

/-- Adds two chains word by word. -/
def Chain.add (s t : Chain) : Chain :=
  ⟨s.a + t.a, s.b + t.b, s.c + t.c, s.d + t.d, s.e + t.e, s.f + t.f, s.g + t.g, s.h + t.h⟩

/-- Folds one block of sixty-four bytes into the chain. -/
def Chain.compress (s : Chain) (block : Bytes) : Chain :=
  let words := (chunksOf 4 block).map fun w => UInt32.ofNat (ofBigEndian w)
  s.add (rounds roundConstants words s)

/-- The words of a chain as bytes, most significant first. -/
def Chain.toBytes (s : Chain) : Bytes :=
  bigEndian 4 s.a.toNat ++ bigEndian 4 s.b.toNat ++ bigEndian 4 s.c.toNat ++ bigEndian 4 s.d.toNat ++
    bigEndian 4 s.e.toNat ++ bigEndian 4 s.f.toNat ++ bigEndian 4 s.g.toNat ++ bigEndian 4 s.h.toNat

/-- The eight words of a chaining value make a digest of thirty-two bytes. -/
@[simp] theorem Chain.length_toBytes (s : Chain) : s.toBytes.length = 32 := by
  simp [Chain.toBytes]

/-- The message, a one bit, zeros, and the length in bits, filling whole blocks. -/
def pad (message : Bytes) : Bytes :=
  message ++ 0x80 :: (List.replicate ((64 - (message.length + 9) % 64) % 64) 0 ++
    bigEndian 8 (8 * message.length))

/-- The digest of a message. -/
def digest (message : Bytes) : Block 32 :=
  ⟨((chunksOf 64 (pad message)).foldl Chain.compress Chain.initial).toBytes, by simp⟩

end DevicePairing.Sha256
