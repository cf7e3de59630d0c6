import DevicePairing.Bytes

/-!
# The tape of random bytes

Every random choice is read off an endless tape, so a run is determined by its inputs and its tape, and
a statement about all tapes is a statement about all random choices. A draw takes the next bytes in
order; how many it takes and in which order is part of what the protocol does.

`Tape.ofSeed` is a repeatable tape from a linear congruential generator. It is for reproducing a run
and for nothing else.
-/

namespace DevicePairing

/-- An endless sequence of bytes and how many of them have been used. -/
structure Tape where
  /-- The byte at each position. -/
  byte : Nat → UInt8
  /-- The position of the next byte. -/
  used : Nat

namespace Tape

/-- The next `n` bytes, and the tape after them. -/
def draw (n : Nat) (t : Tape) : Block n × Tape :=
  (⟨(List.range n).map fun i => t.byte (t.used + i), by simp⟩, { t with used := t.used + n })

/-! ## A repeatable tape -/

/-- The map `x ↦ mul * x + add` on 64-bit words. -/
structure Stride where
  /-- The factor. -/
  mul : UInt64
  /-- The summand. -/
  add : UInt64

/-- First `s`, then `t`. -/
def Stride.andThen (s t : Stride) : Stride := ⟨t.mul * s.mul, t.mul * s.add + t.add⟩

/-- The word a stride leads to. -/
def Stride.apply (s : Stride) (x : UInt64) : UInt64 := s.mul * x + s.add

/-- One step of the generator. -/
def Stride.single : Stride := ⟨6364136223846793005, 1442695040888963407⟩

/-- `n` steps at once, for `n < 2 ^ 64`, by repeated doubling. -/
def Stride.many (n : Nat) : Stride :=
  ((List.range 64).foldl
    (fun (acc : Stride × Stride) i =>
      (if n.testBit i then acc.1.andThen acc.2 else acc.1, acc.2.andThen acc.2))
    (⟨1, 0⟩, Stride.single)).1

/-- The tape of the generator started at `seed`: each step gives the highest byte of its word. -/
def ofSeed (seed : UInt64) : Tape :=
  ⟨fun i => ((Stride.many (i + 1)).apply seed >>> 56).toUInt8, 0⟩

end Tape

end DevicePairing
