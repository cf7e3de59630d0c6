import DevicePairing.Proofs.Stream.Packet.Totals
import Mathlib.Data.List.Perm.Subperm

/-!
# The number after the last one

When a packet is taken in, the number after its own is computed, also if it is the last packet of its message and
nothing is to follow it. Numbers have thirty-two bits, so for the highest of them the sum wraps. A packet may be
empty, and so the limit on the length of messages does not keep a message from having as many packets as numbers
go.

`PacketStream.unwrapped_iff_none_exhausted` says that this is the only case: whatever frames are fed, the sum wraps
exactly where a message is completed by the highest number of packets, so that as many frames are needed for it.
The number that wrapped is given up with the message: what an unfinished message waits for is always right.
`PacketStream.not_unwrapped_drawnOut` is a run in which it happens, and in which the message is delivered.

The proof goes along the ledger of the frames used. A packet that others follow is numbered below its total, and the
number of a last packet is the count of the frames noted for its message (`Ledger.Accounts.length_joined`).
-/

namespace DevicePairing

variable {frames : List Bytes} {frame : Bytes} {id : UInt32} {places : List Nat} {packets : List Packet}
  {p : Packet}

/-- A message has no more packets than there were frames. -/
theorem Packet.Traced.length_le (h : Packet.Traced frames id places packets) : places.length ≤ frames.length := by
  have hnodup : places.Nodup := h.increasing.imp fun hlt => Nat.ne_of_lt hlt
  have hsubset : places ⊆ List.range frames.length := fun place hplace =>
    List.mem_range.2 (h.lt_length hplace)
  simpa using (hnodup.subperm hsubset).length_le

/-- With the packet that a message waits for, as many frames are noted for the message as the packet is numbered. -/
theorem Ledger.Accounts.length_joined {limit : Nat} {s : Receiver} {l : Ledger}
    (h : l.Accounts frames limit s.pending) (parse : Packet.parse frame = .ok p)
    (next : p.number = s.expected p.message) : (l.joined frames.length p).length = p.number.toNat := by
  obtain ⟨⟨packets, htraced, hnumber, _⟩, _⟩ := h.joined parse next
  rw [htraced.length_places, List.length_append, List.length_singleton, hnumber]

/-- Every frame of a message says how many there are. -/
theorem Packet.total_of_parse_numbered {pieces : List Bytes} (countable : pieces.length ≤ Packet.maxTotal)
    (hframe : frame ∈ (Packet.numbered id (UInt32.ofNat pieces.length) 1 pieces).map Packet.toBytes)
    (parse : Packet.parse frame = .ok p) : p.total.toNat = pieces.length := by
  obtain ⟨q, hq, rfl⟩ := List.mem_map.1 hframe
  rw [Packet.parse_toBytes_of_mem_numbered countable hq] at parse
  cases parse
  exact Packet.toNat_total_of_mem_numbered countable hq

namespace PacketStream

/-! ## Sums -/

/-- The number after that of a packet that is taken in, as an exact sum. -/
def Receipt.successor? : Receipt → Option Nat
  | some (p, .ok .stored) => some (p.number.toNat + 1)
  | some (p, .ok (.complete _)) => some (p.number.toNat + 1)
  | _ => none

variable {κ : Type} (sink : FrameSink κ) {s : PacketStream κ}

/-- The numbers after those of the packets that are taken in, one for each of them, in order. -/
def successors (frames : List Bytes) (s : PacketStream κ) : List Nat :=
  (s.receipts sink frames).filterMap Receipt.successor?

/-- No sum is more than a number of a packet can be. -/
def Unwrapped (frames : List Bytes) (s : PacketStream κ) : Prop :=
  ∀ n ∈ s.successors sink frames, n < UInt32.size

/-- The last frame adds its own sum, if it is a packet that is taken in. -/
theorem successors_concat (frames : List Bytes) (frame : Bytes) (s : PacketStream κ) :
    s.successors sink (frames ++ [frame]) = s.successors sink frames ++
      (Receipt.successor? ((s.feedAll sink frames).2.receipt frame)).toList := by
  unfold successors
  rw [receipts_concat, List.filterMap_append]
  cases h : Receipt.successor? ((s.feedAll sink frames).2.receipt frame) <;> simp [h]

/-- For a packet that others follow the sum does not wrap, since they have numbers too. -/
theorem successor_lt_of_more (parse : Packet.parse frame = .ok p) (more : p.number ≠ p.total) :
    p.number.toNat + 1 < UInt32.size := by
  have hless := UInt32.lt_iff_toNat_lt.1 (Packet.number_lt_of_parse parse more)
  exact Nat.lt_of_le_of_lt hless p.total.toNat_lt

/-- The next number can be written unless this one is the last there is. -/
theorem successor_lt_iff (number : UInt32) :
    number.toNat + 1 < UInt32.size ↔ number.toNat ≠ Packet.maxTotal := by
  have hsize : UInt32.size = Packet.maxTotal + 1 := rfl
  have hlt := number.toNat_lt_size
  omega

/-! ## Runs -/

/-- From a state with nothing unfinished, no sum is too large exactly if no message is completed with as many
packets as there are numbers. -/
theorem unwrapped_iff (idle : s.receiver.pending = []) (frames : List Bytes) :
    s.Unwrapped sink frames ↔ ∀ a ∈ (s.ledger sink frames).made, a.places.length ≠ Packet.maxTotal := by
  induction frames using List.reverseRecOn with
  | nil => exact iff_of_true (List.forall_mem_nil _) (List.forall_mem_nil _)
  | append_singleton frames frame ih =>
    have haccounts := (accounts_feedAll sink idle frames).1
    unfold Unwrapped at ih ⊢
    rw [successors_concat, List.forall_mem_append, ih, ledger_concat]
    rcases hreceipt : (s.feedAll sink frames).2.receipt frame with _ | ⟨p, outcome⟩
    · exact and_iff_left (List.forall_mem_nil _)
    obtain ⟨parse, _, haccepted⟩ := feed_of_receipt sink hreceipt
    generalize ((s.feedAll sink frames).2.receiver.accept _ p).2 = s' at haccepted
    cases haccepted with
    | repeated _ | stray _ _ | tooLong _ _ _ => exact and_iff_left (List.forall_mem_nil _)
    | stored _ _ _ more =>
      exact and_iff_left (List.forall_mem_singleton.2 (successor_lt_of_more parse more))
    | completed _ next _ _ =>
      refine Iff.trans (and_congr_right fun _ => ?_) List.forall_mem_append.symm
      refine Iff.trans ?_ List.forall_mem_singleton.symm
      show (∀ n ∈ [p.number.toNat + 1], n < UInt32.size) ↔ _
      rw [List.forall_mem_singleton, haccounts.length_joined parse next, successor_lt_iff]

/-- Whatever frames a stream without unfinished messages is fed: the number after that of a packet taken in is a
number that packets can have, exactly if no message is completed by the highest number of packets. With fewer frames
than that it always is. In either case an unfinished message waits for the packet after those that it has. -/
theorem unwrapped_iff_none_exhausted (idle : s.receiver.pending = []) (frames : List Bytes) :
    (s.Unwrapped sink frames ↔
      ∀ a ∈ (s.ledger sink frames).made, a.places.length ≠ Packet.maxTotal) ∧
    (frames.length < Packet.maxTotal → s.Unwrapped sink frames) ∧
    ∀ u ∈ (s.feedAll sink frames).2.receiver.pending,
      u.next.toNat = ((s.ledger sink frames).unfinished u.message).length + 1 := by
  have haccounts := (accounts_feedAll sink idle frames).1
  refine ⟨unwrapped_iff sink idle frames, fun few => ?_, fun u hu => ?_⟩
  · refine (unwrapped_iff sink idle frames).2 fun a ha => ?_
    obtain ⟨_, _, _, htraced, _⟩ := (haccounts.genuine a ha).whole
    exact Nat.ne_of_lt (Nat.lt_of_le_of_lt htraced.length_le few)
  · obtain ⟨packets, _, htraced, hnext, _⟩ := haccounts.traced u hu
    rw [hnext, htraced.length_places]

/-- In this run no sum is more than three. -/
theorem unwrapped_unruly :
    readied.receiver.pending = [] ∧ unruly.length < Packet.maxTotal ∧
    readied.successors Bench.Sink.frames unruly = [2, 2, 3, 2] ∧
    readied.Unwrapped Bench.Sink.frames unruly := by
  have hfew : unruly.length < Packet.maxTotal := by decide
  exact ⟨rfl, hfew, by decide +kernel,
    (unwrapped_iff_none_exhausted Bench.Sink.frames (s := readied) rfl unruly).2.1 hfew⟩

/-! ## A message of as many packets as numbers go -/

/-- If a message is delivered, one was completed. -/
theorem made_ne_nil (h : StreamAct.messages (s.feedAll sink frames).1 ≠ []) :
    (s.ledger sink frames).made ≠ [] := by
  intro hnone
  have hcompletions := made_ofReceipts (s.receipts sink frames)
  rw [show (Ledger.ofReceipts (s.receipts sink frames)).made = [] from hnone] at hcompletions
  rw [messages_feedAll, List.map_eq_nil_iff.1 hcompletions.symm] at h
  exact h rfl

/-- A message of as many packets as numbers go is delivered like any other, and the number after that of the last
packet wraps. -/
theorem not_unwrapped_of_exhausted {m : DeviceMessage} {op : Operation} {pieces : List Bytes}
    (ready : s.receiver.ReadyFor id) (exhausted : pieces.length = Packet.maxTotal)
    (short : pieces.flatten.length ≤ s.limit) (envelope : Envelope.decode? pieces.flatten = some (m, op)) :
    StreamAct.messages (s.feedAll sink
        ((Packet.numbered id (UInt32.ofNat pieces.length) 1 pieces).map Packet.toBytes)).1 = [(m, op)] ∧
      ¬ s.Unwrapped sink ((Packet.numbered id (UInt32.ofNat pieces.length) 1 pieces).map Packet.toBytes) := by
  have hsize : UInt32.size = Packet.maxTotal + 1 := rfl
  have hne : pieces ≠ [] := by
    rintro rfl
    exact absurd exhausted (by decide)
  have hcompleting : Packet.Completing id 1 (Packet.numbered id (UInt32.ofNat pieces.length) 1 pieces) :=
    Packet.completing_numbered (by omega) hne (Nat.add_comm ..)
  have htotals : ∀ frame ∈ (Packet.numbered id (UInt32.ofNat pieces.length) 1 pieces).map Packet.toBytes,
      ∀ p, Packet.parse frame = .ok p → p.total.toNat = Packet.maxTotal := by
    intro frame hframe p parse
    exact (Packet.total_of_parse_numbered (Nat.le_of_eq exhausted) hframe parse).trans exhausted
  have hpayloads := Packet.payloads_numbered id (UInt32.ofNat pieces.length) 1 pieces
  generalize Packet.numbered id (UInt32.ofNat pieces.length) 1 pieces = packets at *
  rw [← hpayloads] at short envelope
  obtain ⟨_, hfeed, _⟩ := feedAll_completing sink hcompleting (Nat.le_refl 1) ready.collects short
  have hmessages : StreamAct.messages (s.feedAll sink (packets.map Packet.toBytes)).1 = [(m, op)] := by
    rw [hfeed, List.nil_append, StreamAct.ofEnvelope, envelope]
    rfl
  refine ⟨hmessages, fun unwrapped => ?_⟩
  -- whatever was completed has the total that all packets state
  obtain ⟨a, ha⟩ := List.exists_mem_of_ne_nil _ (made_ne_nil sink (hmessages ▸ List.cons_ne_nil _ _))
  obtain ⟨_, before, last, htraced, htotal, _⟩ :=
    ((accounts_feedAll sink ready.pending (packets.map Packet.toBytes)).1.genuine a ha).whole
  obtain ⟨frame, hframe, parse⟩ := htraced.exists_frame (p := last) (by simp)
  refine (unwrapped_iff sink ready.pending _).1 unwrapped a ha ?_
  rw [htraced.length_places, ← htotal]
  exact htotals frame hframe last parse

/-- The pieces of a short message, the first of which has all of it and the others nothing. There are as many as a
message may have. -/
def drawnOut : List Bytes :=
  Envelope.encode ⟨none, false, []⟩ .client :: List.replicate (Packet.maxTotal - 1) []

/-- The frames of these pieces. -/
def drawnOutFrames : List Bytes :=
  (Packet.numbered 5 (UInt32.ofNat drawnOut.length) 1 drawnOut).map Packet.toBytes

/-- A stream as it is made by default. -/
def patient : PacketStream Bench.Sink where
  link := ⟨none⟩
  role := .initiator
  size := 185
  roomy := by decide
  limit := 65536
  sender := ⟨0, [], false⟩
  receiver := .fresh

/-- The same stream when versions have been exchanged. -/
def openedPatient : PacketStream Bench.Sink := (patient.feed Bench.Sink.frames VersionOffer.supported.encode).2

/-- Nothing shorter could do it, and the message arrives. -/
theorem not_unwrapped_drawnOut :
    ofConfig (⟨none⟩ : Bench.Sink) Config.default .initiator = .ok patient ∧
    openedPatient.receiver = { Receiver.fresh with exchanged := true } ∧
    drawnOutFrames.length = 4294967295 ∧
    StreamAct.messages (openedPatient.feedAll Bench.Sink.frames drawnOutFrames).1 =
      [(⟨none, false, []⟩, .client)] ∧
    ¬ openedPatient.Unwrapped Bench.Sink.frames drawnOutFrames := by
  have hreceiver : openedPatient.receiver = { Receiver.fresh with exchanged := true } := by decide +kernel
  have hlimit : openedPatient.limit = 65536 := by decide +kernel
  have hready : openedPatient.receiver.ReadyFor 5 := hreceiver ▸ ⟨rfl, rfl, nofun⟩
  have hlength : drawnOut.length = Packet.maxTotal := by
    rw [drawnOut, List.length_cons, List.length_replicate]
    rfl
  have hflatten : drawnOut.flatten = Envelope.encode ⟨none, false, []⟩ .client := by
    rw [drawnOut, List.flatten_cons, List.flatten_replicate_nil, List.append_nil]
  refine ⟨rfl, hreceiver, ?_, not_unwrapped_of_exhausted Bench.Sink.frames hready hlength ?_ ?_⟩
  · rw [drawnOutFrames, List.length_map, Packet.length_numbered, hlength]
    rfl
  · rw [hflatten, hlimit]
    decide +kernel
  · rw [hflatten]
    exact Envelope.decode?_encode _ (by decide)

end PacketStream

end DevicePairing
