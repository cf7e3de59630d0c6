import DevicePairing.Stream.Packet
import Mathlib.Algebra.Order.Floor.Div

/-!
# The packets of a message

What cutting a message into packets comes to: there are pieces, at least one, that make up the message,
and the packets are these pieces, numbered from one, each with the same total (`Packet.split_eq_ok`). The pieces
fill a packet each, but for the last one (`Packet.length_of_mem_dropLast_pieces`), and there are as many as it takes
(`Packet.length_pieces`), so a message of fewer bytes than can be counted is always cut (`Packet.split_of_le`).
Nothing about sizes matters to those who number, send or collect packets.
-/

namespace DevicePairing

/-! ## Pieces of equal length -/

/-- A list is cut into as many pieces of `n` elements as it takes to cover it. -/
theorem length_chunksOf {α : Type} {n : Nat} (hn : 0 < n) (xs : List α) :
    (chunksOf n xs).length = (xs.length + n - 1) / n := by
  induction xs using chunksOf.induction hn with
  | nil => rw [chunksOf_nil, List.length_nil, List.length_nil, Nat.zero_add, Nat.div_eq_of_lt (by omega)]
  | piece xs h ih =>
    have hpos : 0 < xs.length := List.length_pos_iff.2 h
    rw [chunksOf_of_ne_nil hn h, List.length_cons, ih, List.length_drop]
    by_cases hle : n ≤ xs.length
    · rw [← Nat.add_div_right _ hn]
      congr 1
      omega
    · rw [Nat.div_eq_of_lt (by omega : xs.length - n + n - 1 < n)]
      exact (Nat.div_eq_of_lt_le (by omega) (by omega)).symm

/-- No piece is longer than it may be. -/
theorem length_le_of_mem_chunksOf {α : Type} {n : Nat} (hn : 0 < n) {xs piece : List α}
    (h : piece ∈ chunksOf n xs) : piece.length ≤ n := by
  induction xs using chunksOf.induction hn with
  | nil => cases h
  | piece xs hne ih =>
    rw [chunksOf_of_ne_nil hn hne] at h
    cases h with
    | head _ => exact List.length_take_le n xs
    | tail _ hrest => exact ih hrest

/-- No piece is empty. -/
theorem ne_nil_of_mem_chunksOf {α : Type} {n : Nat} (hn : 0 < n) {xs piece : List α}
    (h : piece ∈ chunksOf n xs) : piece ≠ [] := by
  induction xs using chunksOf.induction hn with
  | nil => cases h
  | piece xs hne ih =>
    rw [chunksOf_of_ne_nil hn hne] at h
    cases h with
    | head _ => exact fun hnone => hne ((List.take_eq_nil_iff.1 hnone).resolve_left (Nat.ne_of_gt hn))
    | tail _ hrest => exact ih hrest

/-- Only the last piece may be shorter than the others. -/
theorem length_of_mem_dropLast_chunksOf {α : Type} {n : Nat} (hn : 0 < n) {xs piece : List α}
    (h : piece ∈ (chunksOf n xs).dropLast) : piece.length = n := by
  induction xs using chunksOf.induction hn with
  | nil => cases h
  | piece xs hne ih =>
    rw [chunksOf_of_ne_nil hn hne] at h
    by_cases hlast : xs.length ≤ n
    · rw [List.drop_eq_nil_of_le hlast] at h
      cases h
    · have hrest : xs.drop n ≠ [] := fun hnone => hlast (List.drop_eq_nil_iff.1 hnone)
      have hmore : chunksOf n (xs.drop n) ≠ [] := by
        rw [chunksOf_of_ne_nil hn hrest]
        exact List.cons_ne_nil _ _
      rw [List.dropLast_cons_of_ne_nil hmore] at h
      cases h with
      | head _ => exact List.length_take_of_le (Nat.le_of_not_le hlast)
      | tail _ hbehind => exact ih hbehind

namespace Packet

/-! ## Numbered pieces -/

/-- Pieces as the packets of a message with a given total, numbered from `k` on. -/
def numbered (id total : UInt32) (k : Nat) (pieces : List Bytes) : List Packet :=
  (pieces.zipIdx k).map fun piece => ⟨id, UInt32.ofNat piece.2, total, piece.1⟩

/-- No pieces make no packets. -/
@[simp] theorem numbered_nil (id total : UInt32) (k : Nat) : numbered id total k [] = [] := rfl

/-- The first piece makes the first packet. -/
@[simp] theorem numbered_cons (id total : UInt32) (k : Nat) (piece : Bytes) (pieces : List Bytes) :
    numbered id total k (piece :: pieces) =
      ⟨id, UInt32.ofNat k, total, piece⟩ :: numbered id total (k + 1) pieces := rfl

/-- There are as many packets as pieces. -/
@[simp] theorem length_numbered (id total : UInt32) (k : Nat) (pieces : List Bytes) :
    (numbered id total k pieces).length = pieces.length := by
  simp [numbered]

/-- The packet at a place has the piece at this place, and a number that many above the first. -/
theorem getElem?_numbered (id total : UInt32) (k : Nat) (pieces : List Bytes) (place : Nat) :
    (numbered id total k pieces)[place]? =
      pieces[place]?.map fun piece => ⟨id, UInt32.ofNat (k + place), total, piece⟩ := by
  simp [numbered, Function.comp_def]

/-- The numbers go on where the first pieces have ended. -/
theorem numbered_append (id total : UInt32) (k : Nat) (pieces pieces' : List Bytes) :
    numbered id total k (pieces ++ pieces') =
      numbered id total k pieces ++ numbered id total (k + pieces.length) pieces' := by
  simp [numbered, List.zipIdx_append]

/-- Packets hold the pieces that they were made of. -/
theorem map_payload_numbered (id total : UInt32) (k : Nat) (pieces : List Bytes) :
    (numbered id total k pieces).map (·.payload) = pieces := by
  induction pieces generalizing k with
  | nil => rfl
  | cons piece pieces ih => rw [numbered_cons, List.map_cons, ih]

/-- Together they hold what the pieces are together. -/
theorem payloads_numbered (id total : UInt32) (k : Nat) (pieces : List Bytes) :
    (numbered id total k pieces).flatMap (·.payload) = pieces.flatten := by
  rw [List.flatMap_def, map_payload_numbered]

/-- Every packet names the message. -/
theorem message_of_mem_numbered {id total : UInt32} {k : Nat} {pieces : List Bytes} {p : Packet}
    (h : p ∈ numbered id total k pieces) : p.message = id := by
  obtain ⟨piece, _, rfl⟩ := List.mem_map.1 h
  rfl

/-- Every packet states the total. -/
theorem total_of_mem_numbered {id total : UInt32} {k : Nat} {pieces : List Bytes} {p : Packet}
    (h : p ∈ numbered id total k pieces) : p.total = total := by
  obtain ⟨piece, _, rfl⟩ := List.mem_map.1 h
  rfl

/-- If there are not too many pieces the total is their number. -/
theorem toNat_total_of_mem_numbered {id : UInt32} {k : Nat} {pieces : List Bytes} {p : Packet}
    (countable : pieces.length ≤ maxTotal) (h : p ∈ numbered id (UInt32.ofNat pieces.length) k pieces) :
    p.total.toNat = pieces.length := by
  rw [total_of_mem_numbered h, UInt32.toNat_ofNat_of_lt' (Nat.lt_succ_of_le countable)]

/-- If the numbers can be written they are consecutive. -/
theorem map_number_numbered (id total : UInt32) {k : Nat} {pieces : List Bytes}
    (countable : k + pieces.length ≤ UInt32.size) :
    (numbered id total k pieces).map (·.number.toNat) = List.range' k pieces.length := by
  induction pieces generalizing k with
  | nil => rfl
  | cons piece pieces ih =>
    rw [List.length_cons] at countable
    rw [numbered_cons, List.map_cons, ih (by omega), UInt32.toNat_ofNat_of_lt' (by omega), List.length_cons,
      List.range'_succ]

/-- Each packet of a message is read again from its frame. -/
theorem parse_toBytes_of_mem_numbered {id : UInt32} {pieces : List Bytes} {p : Packet}
    (countable : pieces.length ≤ maxTotal) (h : p ∈ numbered id (UInt32.ofNat pieces.length) 1 pieces) :
    parse p.toBytes = .ok p := by
  have hsize : UInt32.size = maxTotal + 1 := rfl
  have hnumber : p.number.toNat ∈ List.range' 1 pieces.length := by
    rw [← map_number_numbered id (UInt32.ofNat pieces.length) (by omega)]
    exact List.mem_map_of_mem (f := fun p => p.number.toNat) h
  rw [List.mem_range'_1] at hnumber
  have htotal := toNat_total_of_mem_numbered countable h
  refine parse_toBytes (fun hzero => ?_) ?_
  · rw [hzero] at hnumber
    exact absurd hnumber.1 (by decide)
  · rw [UInt32.lt_iff_toNat_lt]
    omega

/-- Packets complete a message, from one with a given number on: they are numbered one after another, all but the
last one say that others follow them, and the last one says that it is the last. Their totals may say anything
else. -/
inductive Completing (id : UInt32) : Nat → List Packet → Prop where
  /-- The last packet. -/
  | last {k : Nat} {p : Packet} (message : p.message = id) (number : p.number.toNat = k)
    (final : p.number = p.total) : Completing id k [p]
  /-- A packet that others follow. -/
  | more {k : Nat} {p : Packet} {packets : List Packet} (message : p.message = id)
    (number : p.number.toNat = k) (others : p.number < p.total) (rest : Completing id (k + 1) packets) :
    Completing id k (p :: packets)

/-- Pieces up to the last one complete a message. -/
theorem completing_numbered {id : UInt32} {total : Nat} (countable : total < UInt32.size)
    {pieces : List Bytes} (some : pieces ≠ []) {k : Nat} (count : k + pieces.length = total + 1) :
    Completing id k (numbered id (UInt32.ofNat total) k pieces) := by
  have htotal : (UInt32.ofNat total).toNat = total := UInt32.toNat_ofNat_of_lt' countable
  induction pieces generalizing k with
  | nil => exact absurd rfl some
  | cons piece pieces ih =>
    rw [List.length_cons] at count
    have hnumber : (UInt32.ofNat k).toNat = k := UInt32.toNat_ofNat_of_lt' (by omega)
    rw [numbered_cons]
    by_cases hne : pieces = []
    · subst hne
      exact .last rfl hnumber (congrArg UInt32.ofNat (Nat.succ.inj count))
    · have hlen : 0 < pieces.length := List.length_pos_iff.2 hne
      refine .more rfl hnumber ?_ (ih hne (by omega))
      rw [UInt32.lt_iff_toNat_lt, hnumber, htotal]
      omega

/-! ## The pieces of a message -/

/-- The pieces of a message for packets of at most `size` bytes. A message of no bytes is one empty piece. -/
def pieces (data : Bytes) (size : Nat) : List Bytes :=
  if data = [] then [[]] else chunksOf (size - packetHeaderSize) data

/-- How many packets a message takes: one for each piece, the last of which may be shorter, and one even if there
are no bytes. -/
def count (data : Bytes) (size : Nat) : Nat := max 1 (data.length ⌈/⌉ (size - packetHeaderSize))

variable {data : Bytes} {id : UInt32} {size : Nat} {packets : List Packet} {piece : Bytes}

/-- Nothing is one empty piece. -/
theorem pieces_nil (size : Nat) : pieces [] size = [[]] := if_pos rfl

/-- Anything else is cut into pieces that leave room for the header. -/
theorem pieces_of_ne_nil (h : data ≠ []) : pieces data size = chunksOf (size - packetHeaderSize) data :=
  if_neg h

/-- There is always a piece. -/
theorem pieces_ne_nil (roomy : packetHeaderSize < size) : pieces data size ≠ [] := by
  rcases eq_or_ne data [] with rfl | h
  · rw [pieces_nil]
    exact List.cons_ne_nil _ _
  · rw [pieces_of_ne_nil h, chunksOf_of_ne_nil (Nat.sub_pos_of_lt roomy) h]
    exact List.cons_ne_nil _ _

/-- The pieces make up the message. -/
theorem flatten_pieces (roomy : packetHeaderSize < size) : (pieces data size).flatten = data := by
  rcases eq_or_ne data [] with rfl | h
  · rw [pieces_nil]
    rfl
  · rw [pieces_of_ne_nil h, flatten_chunksOf (Nat.sub_pos_of_lt roomy)]

/-- There are as many pieces as the message needs packets. -/
theorem length_pieces (roomy : packetHeaderSize < size) : (pieces data size).length = count data size := by
  have hroom : 0 < size - packetHeaderSize := Nat.sub_pos_of_lt roomy
  rcases eq_or_ne data [] with rfl | h
  · rw [pieces_nil, count, List.length_nil, zero_ceilDiv]
    rfl
  · have hpos : 0 < data.length := List.length_pos_iff.2 h
    rw [pieces_of_ne_nil h, length_chunksOf hroom, count, Nat.ceilDiv_eq_add_pred_div, Nat.max_eq_right]
    exact (Nat.le_div_iff_mul_le hroom).2 (by omega)

/-- With the header no piece is longer than a frame may be. -/
theorem length_le_of_mem_pieces (roomy : packetHeaderSize < size) (h : piece ∈ pieces data size) :
    piece.length ≤ size - packetHeaderSize := by
  rcases eq_or_ne data [] with rfl | hdata
  · rw [pieces_nil] at h
    rw [List.mem_singleton.1 h]
    exact Nat.zero_le _
  · rw [pieces_of_ne_nil hdata] at h
    exact length_le_of_mem_chunksOf (Nat.sub_pos_of_lt roomy) h

/-- All pieces but the last one fill their frames. -/
theorem length_of_mem_dropLast_pieces (roomy : packetHeaderSize < size)
    (h : piece ∈ (pieces data size).dropLast) : piece.length = size - packetHeaderSize := by
  rcases eq_or_ne data [] with rfl | hdata
  · rw [pieces_nil] at h
    cases h
  · rw [pieces_of_ne_nil hdata] at h
    exact length_of_mem_dropLast_chunksOf (Nat.sub_pos_of_lt roomy) h

/-- Only of a message without bytes is a piece without bytes. -/
theorem eq_nil_of_nil_mem_pieces (roomy : packetHeaderSize < size) (h : [] ∈ pieces data size) : data = [] := by
  by_contra hdata
  rw [pieces_of_ne_nil hdata] at h
  exact ne_nil_of_mem_chunksOf (Nat.sub_pos_of_lt roomy) h rfl

/-- Where there is room behind a header, the packets of a message are its pieces, if they can be counted. -/
theorem split_of_roomy (data : Bytes) (id : UInt32) (roomy : packetHeaderSize < size) :
    split data id size =
      if maxTotal < (pieces data size).length then
        .error (.messageTooLarge data.length (min ((size - packetHeaderSize) * maxTotal) (capacity 8 - 1)))
      else .ok (numbered id (UInt32.ofNat (pieces data size).length) 1 (pieces data size)) := by
  have hcount : (pieces data size).length =
      max 1 ((data.length + (size - packetHeaderSize) - 1) / (size - packetHeaderSize)) := by
    rw [length_pieces roomy, count, Nat.ceilDiv_eq_add_pred_div]
  rw [hcount]
  exact if_neg (Nat.not_le.2 roomy)

/-- A message that was cut was cut for frames with room for more than a header. -/
theorem roomy_of_split (h : split data id size = .ok packets) : packetHeaderSize < size := by
  by_contra cramped
  rw [split, if_pos (Nat.not_lt.1 cramped)] at h
  cases h

/-- The packets of a message are its pieces, numbered from one on. -/
theorem numbered_of_split (h : split data id size = .ok packets) :
    (pieces data size).length ≤ maxTotal ∧
      packets = numbered id (UInt32.ofNat (pieces data size).length) 1 (pieces data size) := by
  rw [split_of_roomy data id (roomy_of_split h)] at h
  split at h
  · cases h
  · next countable =>
    cases h
    exact ⟨Nat.not_lt.1 countable, rfl⟩

/-- The packets of a message are numbered pieces that make it up. -/
theorem split_eq_ok (h : split data id size = .ok packets) :
    ∃ pieces, pieces ≠ [] ∧ pieces.flatten = data ∧ pieces.length ≤ maxTotal ∧
      packets = numbered id (UInt32.ofNat pieces.length) 1 pieces :=
  ⟨pieces data size, pieces_ne_nil (roomy_of_split h), flatten_pieces (roomy_of_split h), numbered_of_split h⟩

/-- A message has a packet, even if it is empty. -/
theorem ne_nil_of_split (h : split data id size = .ok packets) : packets ≠ [] := by
  rintro rfl
  have hnone := congrArg List.length (numbered_of_split h).2
  rw [length_numbered] at hnone
  exact pieces_ne_nil (roomy_of_split h) (List.length_eq_zero_iff.1 hnone.symm)

/-- Together they hold the message. -/
theorem payloads_of_split (h : split data id size = .ok packets) : packets.flatMap (·.payload) = data := by
  rw [(numbered_of_split h).2, payloads_numbered, flatten_pieces (roomy_of_split h)]

/-- Each of them is read as it was written. -/
theorem parse_toBytes_of_split (h : split data id size = .ok packets) {p : Packet} (hp : p ∈ packets) :
    parse p.toBytes = .ok p := by
  obtain ⟨countable, rfl⟩ := numbered_of_split h
  exact parse_toBytes_of_mem_numbered countable hp

/-- No packet of a message is longer than the size it was cut to. -/
theorem length_le_of_split (h : split data id size = .ok packets) {p : Packet} (hp : p ∈ packets) :
    p.toBytes.length ≤ size := by
  have roomy := roomy_of_split h
  rw [(numbered_of_split h).2] at hp
  have hpiece : p.payload ∈ pieces data size := by
    rw [← map_payload_numbered id (UInt32.ofNat (pieces data size).length) 1 (pieces data size)]
    exact List.mem_map_of_mem hp
  have hlength := length_le_of_mem_pieces roomy hpiece
  rw [length_toBytes]
  omega

/-- Every byte may have its own packet, so a message with not too many bytes can be cut. -/
theorem split_of_le (id : UInt32) (roomy : packetHeaderSize < size) (short : data.length ≤ maxTotal) :
    ∃ packets, split data id size = .ok packets := by
  have hroom : 0 < size - packetHeaderSize := Nat.sub_pos_of_lt roomy
  have hcount : (pieces data size).length ≤ maxTotal := by
    rw [length_pieces roomy]
    refine Nat.max_le.2 ⟨by decide, Nat.le_trans ?_ short⟩
    exact (ceilDiv_le_iff_le_mul hroom).2 (Nat.le_mul_of_pos_left _ hroom)
  rw [split_of_roomy data id roomy, if_neg (Nat.not_lt.2 hcount)]
  exact ⟨_, rfl⟩

end Packet

end DevicePairing
