import DevicePairing.Proofs.Stream.Packet.Intake
import DevicePairing.Proofs.Stream.Packet.Pieces

/-!
# Messages, packets and frames

A message is cut into packets, and each packet travels as a frame. `Packet.carried_exactly` says what this comes to
for every message and every size: which packets there are (`Packet.Carries`), in which two cases there are none,
and which frames are packets. A frame is the written form of one packet at most, so nothing is lost between
writing and reading in either direction.

What is said of packets comes from the pieces they hold, since the header has the same length in all of them. What is
said of frames comes from `Packet.spelled`, the packet that the bytes of a frame stand for whether its number is
sensible or not.
-/

namespace DevicePairing.Packet

variable {data frame : Bytes} {id : UInt32} {size : Nat} {packets : List Packet} {p : Packet}

/-! ## Packets that carry a message -/

/-- The packets carry the message in frames of the given size, and waste nothing. -/
structure Carries (data : Bytes) (id : UInt32) (size : Nat) (packets : List Packet) : Prop where
  /-- There is at least one packet. -/
  some : packets ≠ []
  /-- All are packets of the message. -/
  message : ∀ p ∈ packets, p.message = id
  /-- They have the numbers 1, 2 and so on. -/
  numbers : packets.map (·.number.toNat) = List.range' 1 packets.length
  /-- Each says how many they are. -/
  total : ∀ p ∈ packets, p.total.toNat = packets.length
  /-- What they hold makes up the message. -/
  payloads : packets.flatMap (·.payload) = data
  /-- All but the last one fill their frames. -/
  full : ∀ p ∈ packets.dropLast, p.toBytes.length = size
  /-- The last one fits into its frame. -/
  fits : ∀ p ∈ packets.getLast?, p.toBytes.length ≤ size
  /-- It holds something, unless there is nothing to hold. -/
  empty : ∀ p ∈ packets.getLast?, p.payload = [] → data = []
  /-- Each is read from its frame as it was. -/
  legible : ∀ p ∈ packets, parse p.toBytes = .ok p

/-- The packets of a message carry it. -/
theorem carries_of_split (h : split data id size = .ok packets) : Carries data id size packets := by
  have roomy := roomy_of_split h
  obtain ⟨countable, hpackets⟩ := numbered_of_split h
  have hsize : UInt32.size = maxTotal + 1 := rfl
  have hlength : packets.length = (pieces data size).length := by rw [hpackets, length_numbered]
  have hpayloads : packets.map (·.payload) = pieces data size := by rw [hpackets, map_payload_numbered]
  constructor
  case some => exact ne_nil_of_split h
  case message =>
    intro p hp
    exact message_of_mem_numbered (hpackets ▸ hp)
  case numbers => rw [hlength, hpackets, map_number_numbered _ _ (by omega)]
  case total =>
    intro p hp
    rw [toNat_total_of_mem_numbered countable (hpackets ▸ hp), hlength]
  case payloads => exact payloads_of_split h
  case full =>
    intro p hp
    have hpiece : p.payload ∈ (pieces data size).dropLast := by
      rw [← hpayloads, ← List.map_dropLast]
      exact List.mem_map_of_mem hp
    rw [length_toBytes, length_of_mem_dropLast_pieces roomy hpiece]
    omega
  case fits =>
    intro p hp
    exact length_le_of_split h (List.mem_of_getLast? hp)
  case empty =>
    intro p hp hnone
    have hpiece : p.payload ∈ pieces data size := by
      rw [← hpayloads]
      exact List.mem_map_of_mem (List.mem_of_getLast? hp)
    exact eq_nil_of_nil_mem_pieces roomy (hnone ▸ hpiece)
  case legible => exact fun p hp => parse_toBytes_of_split h hp

/-! ## Frames that are packets -/

/-- The packet that a frame stands for, whatever its number. -/
def spelled (frame : Bytes) : Packet :=
  ⟨wordAt 0 frame, wordAt 4 frame, wordAt 8 frame, frame.drop packetHeaderSize⟩

/-- A frame is a packet exactly if it has a header, and in it a number between one and the total. -/
theorem parse_eq_ok_iff :
    parse frame = .ok p ↔ packetHeaderSize ≤ frame.length ∧
      ((spelled frame).number ≠ 0 ∧ ¬ (spelled frame).total < (spelled frame).number) ∧ spelled frame = p := by
  unfold parse
  by_cases short : frame.length < packetHeaderSize
  · rw [if_pos short]
    exact ⟨nofun, fun h => absurd h.1 (Nat.not_le.2 short)⟩
  rw [if_neg short, and_iff_right (Nat.not_lt.1 short), ← not_or]
  show (if (spelled frame).number = 0 ∨ (spelled frame).total < (spelled frame).number then
    Except.error (StreamError.strayNumber (spelled frame).number (spelled frame).total)
    else Except.ok (spelled frame)) = Except.ok p ↔ _
  split
  · next stray => exact ⟨nofun, fun h => absurd stray h.1⟩
  · next sensible => exact ⟨fun h => ⟨sensible, Except.ok.inj h⟩, fun h => congrArg Except.ok h.2⟩

/-- There is a whole word at a place with four bytes behind it. -/
theorem length_word {offset : Nat} (h : offset + 4 ≤ frame.length) :
    ((frame.drop offset).take 4).length = 4 := by
  rw [List.length_take, List.length_drop]
  omega

/-- The word is the number that these bytes spell, most significant first. -/
theorem toNat_wordAt {offset : Nat} (h : offset + 4 ≤ frame.length) :
    (wordAt offset frame).toNat = ofBigEndian ((frame.drop offset).take 4) := by
  have hlt := ofBigEndian_lt ((frame.drop offset).take 4)
  rw [length_word h] at hlt
  exact UInt32.toNat_ofNat_of_lt' hlt

/-- It is written with these bytes. -/
theorem bigEndian_wordAt {offset : Nat} (h : offset + 4 ≤ frame.length) :
    bigEndian 4 (wordAt offset frame).toNat = (frame.drop offset).take 4 := by
  have hwrite := bigEndian_ofBigEndian ((frame.drop offset).take 4)
  rwa [length_word h, ← toNat_wordAt h] at hwrite

/-- Nothing of a frame is lost. -/
theorem toBytes_spelled (long : packetHeaderSize ≤ frame.length) : (spelled frame).toBytes = frame := by
  have hheader : packetHeaderSize = 12 := rfl
  have hwords : frame.drop 4 = (frame.drop 4).take 4 ++ frame.drop 8 :=
    (List.take_append_drop 4 (frame.drop 4)).symm.trans (by rw [List.drop_drop])
  have hrest : frame.drop 8 = (frame.drop 8).take 4 ++ frame.drop packetHeaderSize :=
    (List.take_append_drop 4 (frame.drop 8)).symm.trans (by rw [List.drop_drop, hheader])
  show bigEndian 4 (wordAt 0 frame).toNat ++ (bigEndian 4 (wordAt 4 frame).toNat ++
    (bigEndian 4 (wordAt 8 frame).toNat ++ frame.drop packetHeaderSize)) = frame
  rw [bigEndian_wordAt (by omega), bigEndian_wordAt (by omega), bigEndian_wordAt (by omega), ← hrest, ← hwords,
    List.drop_zero, List.take_append_drop]

/-- A packet is written as the frame from which it was read. -/
theorem toBytes_of_parse (h : parse frame = .ok p) : p.toBytes = frame := by
  obtain ⟨long, _, rfl⟩ := parse_eq_ok_iff.1 h
  exact toBytes_spelled long

/-- The number of the packet that a frame would be, read off its bytes. -/
def numberIn (frame : Bytes) : Nat := ofBigEndian ((frame.drop 4).take 4)

/-- The total of the packet that a frame would be, read off its bytes. -/
def totalIn (frame : Bytes) : Nat := ofBigEndian ((frame.drop 8).take 4)

/-- A frame is a packet if it is long enough for the header of one, and its number is among those that the total
allows. -/
theorem exists_parse_iff :
    (∃ p, parse frame = .ok p) ↔
      packetHeaderSize ≤ frame.length ∧ 1 ≤ numberIn frame ∧ numberIn frame ≤ totalIn frame := by
  have hheader : packetHeaderSize = 12 := rfl
  simp only [parse_eq_ok_iff, exists_and_left, exists_eq', and_true]
  refine and_congr_right fun long => ?_
  have hnumber : (spelled frame).number.toNat = numberIn frame := toNat_wordAt (by omega)
  have htotal : (spelled frame).total.toNat = totalIn frame := toNat_wordAt (by omega)
  rw [UInt32.lt_iff_toNat_lt, hnumber, htotal, Nat.not_lt, ← hnumber, Nat.one_le_iff_ne_zero]
  exact and_congr_left fun _ => not_congr UInt32.toNat_inj.symm

/-! ## In both directions -/

/-- Where a frame has room behind the header of a packet, and as many packets as a message takes can be counted in
thirty-two bits, the message is cut into that many packets, and they carry it; without room, or with more packets
than that, there is an error and no packet. A frame that is read as a packet is the written form of it, and a frame
is a packet exactly if it is long enough and its number lies between one and its total. -/
theorem carried_exactly (data : Bytes) (id : UInt32) (size : Nat) :
    (packetHeaderSize < size → count data size + 1 < UInt32.size →
      ∃ packets, split data id size = .ok packets ∧ packets.length = count data size ∧
        Carries data id size packets) ∧
    (size ≤ packetHeaderSize → split data id size = .error (.writeSize size)) ∧
    (packetHeaderSize < size → UInt32.size ≤ count data size →
      split data id size = .error (.messageTooLarge data.length
        (min ((size - packetHeaderSize) * (UInt32.size - 1)) (capacity 8 - 1)))) ∧
    ∀ frame, (∀ p, parse frame = .ok p → p.toBytes = frame) ∧
      ((∃ p, parse frame = .ok p) ↔
        packetHeaderSize ≤ frame.length ∧ 1 ≤ numberIn frame ∧ numberIn frame ≤ totalIn frame) := by
  have hsize : UInt32.size = maxTotal + 1 := rfl
  refine ⟨fun roomy countable => ?_, fun cramped => if_pos cramped, fun roomy many => ?_, fun frame => ?_⟩
  · have hsplit := split_of_roomy data id roomy
    rw [length_pieces roomy, if_neg (by omega)] at hsplit
    refine ⟨_, hsplit, ?_, carries_of_split hsplit⟩
    rw [length_numbered, length_pieces roomy]
  · rw [split_of_roomy data id roomy, length_pieces roomy, if_pos (by omega)]
    rfl
  · exact ⟨fun p => toBytes_of_parse, exists_parse_iff⟩

/-- Twenty-five bytes in frames of twenty-two take three packets, of which the last one is half full. No room, too
many packets and the frame of a packet are the other cases. -/
theorem carried_exactly_in_three :
    (packetHeaderSize < 22 ∧ count (List.replicate 25 7) 22 + 1 < UInt32.size ∧
      ∃ packets, split (List.replicate 25 7) 3 22 = .ok packets ∧ packets.length = 3 ∧
        Carries (List.replicate 25 7) 3 22 packets) ∧
    (12 ≤ packetHeaderSize ∧ split [1] 0 12 = .error (.writeSize 12)) ∧
    (packetHeaderSize < 13 ∧ UInt32.size ≤ count (List.replicate UInt32.size 0) 13 ∧
      split (List.replicate UInt32.size 0) 0 13 = .error (.messageTooLarge UInt32.size (UInt32.size - 1))) ∧
    (parse [0, 0, 0, 9, 0, 0, 0, 2, 0, 0, 0, 2, 8] = .ok ⟨9, 2, 2, [8]⟩ ∧
      toBytes ⟨9, 2, 2, [8]⟩ = [0, 0, 0, 9, 0, 0, 0, 2, 0, 0, 0, 2, 8]) := by
  have hthree : count (List.replicate 25 7) 22 = 3 := by decide
  have hmany : count (List.replicate UInt32.size 0) 13 = UInt32.size := by
    rw [count, List.length_replicate, Nat.ceilDiv_eq_add_pred_div]
    rfl
  have hparse : parse [0, 0, 0, 9, 0, 0, 0, 2, 0, 0, 0, 2, 8] = .ok ⟨9, 2, 2, [8]⟩ := by decide
  refine ⟨⟨by decide, by decide, ?_⟩, ⟨by decide, (carried_exactly [1] 0 12).2.1 (by decide)⟩,
    ⟨by decide, Nat.le_of_eq hmany.symm, ?_⟩, hparse, ?_⟩
  · have h := (carried_exactly (List.replicate 25 7) 3 22).1 (by decide) (by decide)
    rwa [hthree] at h
  · have h := (carried_exactly (List.replicate UInt32.size 0) 0 13).2.2.1 (by decide) (Nat.le_of_eq hmany.symm)
    rwa [List.length_replicate] at h
  · exact ((carried_exactly [] 0 0).2.2.2 _).1 _ hparse

end DevicePairing.Packet
