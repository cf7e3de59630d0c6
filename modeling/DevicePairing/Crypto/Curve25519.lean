import DevicePairing.Bytes

/-!
# Diffie-Hellman on Curve25519

The function X25519 of RFC 7748 on natural numbers below the prime `2 ^ 255 - 19`. A public key is read
with its top bit ignored and reduced; a secret is clamped when it is used, not when it is drawn.
-/

namespace DevicePairing.Curve25519

/-- What the top bit of thirty-two bytes stands for, `2 ^ 255`. -/
def topBit : Nat := capacity 32 / 2

/-- The prime of the field. -/
def prime : Nat := topBit - 19

/-- Difference in the field, for arguments below the prime. -/
def sub (a b : Nat) : Nat := (a + (prime - b)) % prime

/-- Product in the field. -/
def mul (a b : Nat) : Nat := a * b % prime

/-- `x` to a power given by its bits, most significant first. -/
def power (x : Nat) (bits : List Bool) : Nat :=
  bits.foldl (fun acc bit => let sq := mul acc acc; if bit then mul sq x else sq) 1

/-- The lowest `count` bits of a number, most significant first. -/
def bitsOf (count n : Nat) : List Bool := (List.range count).reverse.map n.testBit

/-- The inverse in the field, zero for zero. -/
def inverse (x : Nat) : Nat := power x (bitsOf 255 (prime - 2))

/-- The scalar a secret stands for: a multiple of eight with its highest bit at place 254. -/
def clamp (secret : Block 32) : Nat :=
  ofLittleEndian secret.val % (topBit / 2) / 8 * 8 + topBit / 2

/-- The two running points of the ladder, each as a ratio. -/
structure Ladder where
  /-- Numerator of the point so far. -/
  x2 : Nat
  /-- Denominator of the point so far. -/
  z2 : Nat
  /-- Numerator of its successor. -/
  x3 : Nat
  /-- Denominator of its successor. -/
  z3 : Nat

/-- Exchanges the two points when the flag is set. -/
def Ladder.swapIf (flag : Bool) (l : Ladder) : Ladder :=
  if flag then ⟨l.x3, l.z3, l.x2, l.z2⟩ else l

/-- Doubles the first point and adds it to the second, which stays `u` apart from it. -/
def Ladder.step (u : Nat) (l : Ladder) : Ladder :=
  let a := (l.x2 + l.z2) % prime
  let aa := mul a a
  let b := sub l.x2 l.z2
  let bb := mul b b
  let e := sub aa bb
  let c := (l.x3 + l.z3) % prime
  let d := sub l.x3 l.z3
  let da := mul d a
  let cb := mul c b
  let sum := (da + cb) % prime
  let diff := sub da cb
  ⟨mul aa bb, mul e ((aa + mul 121665 e) % prime), mul sum sum, mul u (mul diff diff)⟩

/-- The coordinate of the multiple `k` of the point with coordinate `u`. -/
def scale (k u : Nat) : Nat :=
  let last := (bitsOf 255 k).foldl
    (fun l bit => ((l.swapIf bit).step u).swapIf bit) (Ladder.mk 1 0 u 1)
  mul last.x2 (inverse last.z2)

/-- The shared secret of one side's secret and the other side's public key. -/
def shared (secret peer : Block 32) : Block 32 :=
  let u := ofLittleEndian peer.val % topBit % prime
  ⟨littleEndian 32 (scale (clamp secret) u), length_littleEndian ..⟩

/-- The public key of a secret: the multiple of the base point with coordinate nine. -/
def publicKey (secret : Block 32) : Block 32 :=
  ⟨littleEndian 32 (scale (clamp secret) 9), length_littleEndian ..⟩

end DevicePairing.Curve25519
