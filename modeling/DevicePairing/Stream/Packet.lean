import DevicePairing.Config
import DevicePairing.Stream.Basic

/-!
# Packets

A packet is one piece of a message: twelve bytes of header (the message, the number of the piece
counted from one, and how many pieces there are, each in four bytes) and the piece itself.

`split` cuts a message into packets that fill the given size; `parse_toBytes` says that a packet with a
sensible number reads back from its bytes.
-/

namespace DevicePairing

/-- One piece of a message. -/
structure Packet where
  /-- The message the piece belongs to. -/
  message : UInt32
  /-- The number of the piece, from one. -/
  number : UInt32
  /-- How many pieces the message has. -/
  total : UInt32
  /-- The piece. -/
  payload : Bytes
  deriving DecidableEq

namespace Packet

/-- A packet as a frame. -/
def toBytes (p : Packet) : Bytes :=
  bigEndian 4 p.message.toNat ++ (bigEndian 4 p.number.toNat ++
    (bigEndian 4 p.total.toNat ++ p.payload))

/-- A packet is longer than its payload by its header. -/
theorem length_toBytes (p : Packet) :
    p.toBytes.length = packetHeaderSize + p.payload.length := by
  simp [toBytes, packetHeaderSize]
  omega

/-- The number in four bytes of a frame. -/
def wordAt (offset : Nat) (frame : Bytes) : UInt32 :=
  UInt32.ofNat (ofBigEndian ((frame.drop offset).take 4))

/-- The packet that a frame holds. The number must be one of those the total allows. -/
def parse (frame : Bytes) : Except StreamError Packet :=
  if frame.length < packetHeaderSize then .error (.shortPacket frame.length)
  else
    let p : Packet :=
      ⟨wordAt 0 frame, wordAt 4 frame, wordAt 8 frame, frame.drop packetHeaderSize⟩
    if p.number = 0 ∨ p.total < p.number then .error (.strayNumber p.number p.total)
    else .ok p

/-- To drop more than a leading word is to drop the word and then the rest. -/
theorem drop_word (w : UInt32) (k : Nat) (rest : Bytes) :
    (bigEndian 4 w.toNat ++ rest).drop (4 + k) = rest.drop k := by
  rw [← List.drop_drop (i := k) (j := 4)]
  simp

/-- A word that stands in front is the word at place zero. -/
theorem wordAt_zero_append (w : UInt32) (rest : Bytes) :
    wordAt 0 (bigEndian 4 w.toNat ++ rest) = w := by
  have hlt : w.toNat < capacity 4 := w.toNat_lt
  simp only [wordAt, List.drop_zero]
  rw [List.take_append_of_le_length (by simp), List.take_of_length_le (by simp),
    ofBigEndian_bigEndian, Nat.mod_eq_of_lt hlt]
  exact UInt32.ofNat_toNat

/-- Behind a leading word the places count from its end. -/
theorem wordAt_add_append (w : UInt32) (k : Nat) (rest : Bytes) :
    wordAt (4 + k) (bigEndian 4 w.toNat ++ rest) = wordAt k rest := by
  simp only [wordAt, drop_word]

/-- A packet whose number is between one and its total is read as it was written. -/
theorem parse_toBytes {p : Packet} (h : p.number ≠ 0) (ht : ¬ p.total < p.number) :
    parse p.toBytes = .ok p := by
  have e0 : wordAt 0 p.toBytes = p.message := wordAt_zero_append ..
  have e4 : wordAt 4 p.toBytes = p.number := by
    rw [toBytes, show 4 = 4 + 0 from rfl, wordAt_add_append, wordAt_zero_append]
  have e8 : wordAt 8 p.toBytes = p.total := by
    rw [toBytes, show 8 = 4 + (4 + 0) from rfl, wordAt_add_append, wordAt_add_append,
      wordAt_zero_append]
  have ep : p.toBytes.drop packetHeaderSize = p.payload := by
    rw [toBytes, show packetHeaderSize = 4 + (4 + (4 + 0)) from rfl, drop_word, drop_word, drop_word,
      List.drop_zero]
  unfold parse
  rw [if_neg (by rw [length_toBytes]; omega)]
  simp only [e0, e4, e8, ep]
  rw [if_neg fun h' => h'.elim h ht]

/-- The most packets one message may have. -/
def maxTotal : Nat := capacity 4 - 1

/-- Cuts a message into packets of at most `size` bytes each. An empty message is one empty packet. -/
def split (data : Bytes) (message : UInt32) (size : Nat) : Except StreamError (List Packet) :=
  if size ≤ packetHeaderSize then .error (.writeSize size)
  else
    let room := size - packetHeaderSize
    let count := max 1 ((data.length + room - 1) / room)
    if maxTotal < count then
      .error (.messageTooLarge data.length (min (room * maxTotal) (capacity 8 - 1)))
    else
      let pieces := if data = [] then [[]] else chunksOf room data
      .ok ((pieces.zipIdx 1).map fun piece =>
        ⟨message, UInt32.ofNat piece.2, UInt32.ofNat count, piece.1⟩)

end Packet

end DevicePairing
