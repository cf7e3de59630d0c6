import DevicePairing.Proofs.Stream.Packet.Delivery
import DevicePairing.Proofs.Stream.Packet.Intake
import Mathlib.Data.List.Basic
import Mathlib.Data.List.Induction
import Mathlib.Logic.Function.Basic

/-!
# The frames that messages are made of

The other side may feed a stream any frames at all: packets out of order, packets again, packets of many
messages at once, numbers used for another message, frames that are no packets. Whatever it is fed, a
message is completed only by packets of it that were fed before in the right order and are all there are of
it, and no frame is used for two messages (`PacketStream.genuine_and_apart`).

A stream keeps the bytes of an unfinished message but not the frames they came in. A `Ledger` notes these,
frame by frame, from what came of each. The invariant, `Ledger.Accounts`, ties each entry in the table of
unfinished messages to the frames noted for it. Entries may be pushed out or given up, and their frames stay
noted, but a message is always begun anew with its first packet, and that starts a new note.
-/

namespace DevicePairing

/-! ## Frames that make up a message -/

/-- The frames at some places are packets of a message, numbered from one on without a gap and fed in that
order. -/
structure Packet.Traced (frames : List Bytes) (id : UInt32) (places : List Nat)
    (packets : List Packet) : Prop where
  /-- They were fed one after another. -/
  increasing : places.Pairwise (· < ·)
  /-- The frames are the packets. -/
  parsed : places.map (fun place => frames[place]?.map Packet.parse) = packets.map fun p => some (.ok p)
  /-- The packets are of one message. -/
  message : ∀ p ∈ packets, p.message = id
  /-- They have the numbers 1, 2 and so on. -/
  numbers : packets.map (·.number.toNat) = List.range' 1 packets.length

/-- A message that was completed. -/
structure Assembled where
  /-- The places of the frames it was put together from. -/
  places : List Nat
  /-- Its bytes. -/
  data : Bytes
  deriving DecidableEq

/-- A message was put together from all its packets, and is not longer than the limit. -/
structure Assembled.Genuine (frames : List Bytes) (limit : Nat) (a : Assembled) : Prop where
  /-- The frames are the packets of one message, as many as the last one says, and hold its bytes. -/
  whole : ∃ id packets last, Packet.Traced frames id a.places (packets ++ [last]) ∧
    last.total.toNat = (packets ++ [last]).length ∧ a.data = (packets ++ [last]).flatMap (·.payload)
  /-- It is not too long. -/
  short : a.data.length ≤ limit

namespace Packet.Traced

variable {frames : List Bytes} {id id' : UInt32} {places places' : List Nat}
  {packets packets' : List Packet} {frame : Bytes} {p : Packet} {place : Nat}

/-- At each place stands a frame that is one of the packets. -/
theorem exists_of_mem (h : Traced frames id places packets) (hplace : place ∈ places) :
    ∃ p ∈ packets, frames[place]?.map Packet.parse = some (.ok p) := by
  have hmem := List.mem_map_of_mem (f := fun place => frames[place]?.map Packet.parse) hplace
  rw [h.parsed] at hmem
  obtain ⟨p, hp, heq⟩ := List.mem_map.1 hmem
  exact ⟨p, hp, heq.symm⟩

/-- Each packet has come in a frame. -/
theorem exists_frame (h : Traced frames id places packets) (hp : p ∈ packets) :
    ∃ frame ∈ frames, Packet.parse frame = .ok p := by
  have hmem := List.mem_map_of_mem (f := fun p => some (Except.ok (ε := StreamError) p)) hp
  rw [← h.parsed] at hmem
  obtain ⟨place, _, hread⟩ := List.mem_map.1 hmem
  obtain ⟨frame, hframe, hparse⟩ := Option.map_eq_some_iff.1 hread
  exact ⟨frame, List.mem_of_getElem? hframe, hparse⟩

/-- Each packet is in a frame of its own. -/
theorem length_places (h : Traced frames id places packets) : places.length = packets.length := by
  simpa using congrArg List.length h.parsed

/-- The places are among those of the frames. -/
theorem lt_length (h : Traced frames id places packets) (hplace : place ∈ places) :
    place < frames.length := by
  obtain ⟨p, _, hp⟩ := h.exists_of_mem hplace
  obtain ⟨frame, hframe, _⟩ := Option.map_eq_some_iff.1 hp
  exact (List.getElem?_eq_some_iff.1 hframe).1

/-- Frames that are fed later change nothing. -/
theorem append (h : Traced frames id places packets) (more : List Bytes) :
    Traced (frames ++ more) id places packets := by
  refine ⟨h.increasing, ?_, h.message, h.numbers⟩
  rw [← h.parsed]
  apply List.map_congr_left
  intro place hplace
  rw [List.getElem?_append_left (h.lt_length hplace)]

/-- A packet may be the first one of its message. -/
theorem singleton (parse : Packet.parse frame = .ok p) (number : p.number = 1) :
    Traced (frames ++ [frame]) p.message [frames.length] [p] := by
  refine ⟨List.pairwise_singleton _ _, ?_, ?_, ?_⟩
  · simp [parse]
  · simp
  · simp [number]

/-- Or it has the number after those that are there. -/
theorem concat (h : Traced frames p.message places packets) (parse : Packet.parse frame = .ok p)
    (number : p.number.toNat = packets.length + 1) :
    Traced (frames ++ [frame]) p.message (places ++ [frames.length]) (packets ++ [p]) := by
  have hlater := h.append [frame]
  constructor
  case increasing =>
    rw [List.pairwise_append]
    refine ⟨h.increasing, List.pairwise_singleton _ _, ?_⟩
    intro place hplace n hn
    rw [List.mem_singleton.1 hn]
    exact h.lt_length hplace
  case parsed =>
    rw [List.map_append, hlater.parsed, List.map_append]
    simp [parse]
  case message =>
    intro q hq
    rcases List.mem_append.1 hq with hq | hq
    · exact h.message q hq
    · rw [List.mem_singleton.1 hq]
  case numbers =>
    rw [List.map_append, h.numbers, List.length_append, List.length_singleton, List.range'_concat,
      List.map_singleton, number]
    simp [Nat.add_comm]

/-- Packets of different messages are in different frames. -/
theorem disjoint (h : Traced frames id places packets) (h' : Traced frames id' places' packets')
    (other : id ≠ id') : List.Disjoint places places' := by
  intro place hplace hplace'
  obtain ⟨p, hp, hparse⟩ := h.exists_of_mem hplace
  obtain ⟨q, hq, hparse'⟩ := h'.exists_of_mem hplace'
  rw [hparse] at hparse'
  cases hparse'
  exact other ((h.message p hp).symm.trans (h'.message p hq))

end Packet.Traced

/-- A message that is genuine is so whatever comes in later. -/
theorem Assembled.Genuine.append {frames : List Bytes} {limit : Nat} {a : Assembled}
    (h : a.Genuine frames limit) (more : List Bytes) : a.Genuine (frames ++ more) limit := by
  obtain ⟨id, packets, last, htraced, htotal, hdata⟩ := h.whole
  exact ⟨⟨id, packets, last, htraced.append more, htotal, hdata⟩, h.short⟩

/-- It was made of frames that have come in. -/
theorem Assembled.Genuine.lt_length {frames : List Bytes} {limit : Nat} {a : Assembled}
    (h : a.Genuine frames limit) {place : Nat} (hplace : place ∈ a.places) : place < frames.length := by
  obtain ⟨_, _, _, htraced, _⟩ := h.whole
  exact htraced.lt_length hplace

/-! ## The ledger -/

/-- Which frames were used for what. -/
structure Ledger where
  /-- The places of the frames that the bytes of an unfinished message came in. -/
  unfinished : UInt32 → List Nat
  /-- The messages completed, in order. -/
  made : List Assembled

namespace Ledger

open PacketStream (Receipt)

/-- Nothing was used. -/
def empty : Ledger := ⟨fun _ => [], []⟩

/-- The frames that a message is made of once a packet of it has been taken in. The first packet begins the
message anew. -/
def joined (place : Nat) (p : Packet) (l : Ledger) : List Nat :=
  if p.number = 1 then [place] else l.unfinished p.message ++ [place]

/-- Notes what came of the frame at a place. -/
def enter (place : Nat) (l : Ledger) : Receipt → Ledger
  | some (p, .ok .stored) =>
    { l with unfinished := Function.update l.unfinished p.message (l.joined place p) }
  | some (p, .ok (.complete data)) => { l with made := l.made ++ [⟨l.joined place p, data⟩] }
  | _ => l

/-- A packet that is stored is noted with its message. -/
theorem unfinished_enter_stored (place : Nat) (l : Ledger) (p : Packet) :
    (l.enter place (some (p, .ok .stored))).unfinished p.message = l.joined place p :=
  Function.update_self ..

/-- It is noted with no other. -/
theorem unfinished_enter_stored_of_ne (place : Nat) (l : Ledger) {p : Packet} {id : UInt32}
    (h : id ≠ p.message) :
    (l.enter place (some (p, .ok .stored))).unfinished id = l.unfinished id :=
  Function.update_of_ne h ..

/-- Notes what came of frames, in order. -/
def ofReceipts (receipts : List Receipt) : Ledger :=
  receipts.zipIdx.foldl (fun l receipt => l.enter receipt.2 receipt.1) empty

/-- The last receipt is entered last. -/
theorem ofReceipts_concat (receipts : List Receipt) (receipt : Receipt) :
    ofReceipts (receipts ++ [receipt]) =
      (ofReceipts receipts).enter receipts.length receipt := by
  simp [ofReceipts, List.zipIdx_append]

/-- The table of unfinished messages is in order: what is in it came in the frames noted, and these were not
used for any message completed. -/
structure Accounts (frames : List Bytes) (limit : Nat) (pending : List Unfinished) (l : Ledger) :
    Prop where
  /-- The frames of an unfinished message are its first packets, and hold its bytes. -/
  traced : ∀ u ∈ pending, ∃ packets, packets ≠ [] ∧
    Packet.Traced frames u.message (l.unfinished u.message) packets ∧
    u.next.toNat = packets.length + 1 ∧ u.data = packets.flatMap (·.payload)
  /-- They are used for no message completed. -/
  unused : ∀ u ∈ pending, ∀ a ∈ l.made, List.Disjoint (l.unfinished u.message) a.places
  /-- Each message completed was put together from all its packets. -/
  genuine : ∀ a ∈ l.made, a.Genuine frames limit
  /-- No frame was used for two of them. -/
  apart : l.made.Pairwise fun a b => List.Disjoint a.places b.places

variable {frames : List Bytes} {limit : Nat} {s s' : Receiver} {l : Ledger} {frame : Bytes}
  {p : Packet} {pending : List Unfinished}

/-- A frame that is not used may do no more than remove messages from the table. -/
theorem Accounts.of_subset (h : l.Accounts frames limit s.pending) (frame : Bytes)
    (subset : pending ⊆ s.pending) : l.Accounts (frames ++ [frame]) limit pending where
  traced u hu := by
    obtain ⟨packets, hne, htraced, hnext, hdata⟩ := h.traced u (subset hu)
    exact ⟨packets, hne, htraced.append [frame], hnext, hdata⟩
  unused u hu := h.unused u (subset hu)
  genuine a ha := (h.genuine a ha).append [frame]
  apart := h.apart

/-- The packet that a message waits for makes it longer by one packet, in a frame not used before. -/
theorem Accounts.joined (h : l.Accounts frames limit s.pending) (parse : Packet.parse frame = .ok p)
    (next : p.number = s.expected p.message) :
    (∃ packets, Packet.Traced (frames ++ [frame]) p.message (l.joined frames.length p)
        (packets ++ [p]) ∧ p.number.toNat = packets.length + 1 ∧
      s.gathered p.message ++ p.payload = (packets ++ [p]).flatMap (·.payload)) ∧
    ∀ a ∈ l.made, List.Disjoint (l.joined frames.length p) a.places := by
  have hnew : ∀ a ∈ l.made, frames.length ∉ a.places := by
    intro a ha hused
    exact Nat.lt_irrefl _ ((h.genuine a ha).lt_length hused)
  rcases hfind : s.find? p.message with _ | u
  -- the message begins
  · rw [Receiver.expected_of_none hfind] at next
    have hjoined : l.joined frames.length p = [frames.length] := if_pos next
    rw [hjoined, Receiver.gathered_of_none hfind]
    refine ⟨⟨[], .singleton parse next, by rw [next]; rfl, by simp⟩, ?_⟩
    intro a ha
    exact List.singleton_disjoint.2 (hnew a ha)
  -- the message goes on; its first packet is there, so this is not the first one
  · obtain ⟨hu, hmessage⟩ := Receiver.mem_of_find? hfind
    obtain ⟨packets, hne, htraced, hnext, hdata⟩ := h.traced u hu
    rw [Receiver.expected_of_find? hfind] at next
    rw [hmessage] at htraced
    have hnumber : p.number.toNat = packets.length + 1 := by rw [next, hnext]
    have hlater : p.number ≠ 1 := by
      intro hone
      rw [hone] at hnumber
      exact hne (List.length_eq_zero_iff.1 (Nat.succ.inj hnumber).symm)
    have hjoined : l.joined frames.length p = l.unfinished p.message ++ [frames.length] := if_neg hlater
    rw [hjoined, Receiver.gathered_of_find? hfind, hdata]
    refine ⟨⟨packets, htraced.concat parse hnumber, hnumber, by simp⟩, ?_⟩
    intro a ha
    rw [← hmessage]
    exact List.disjoint_append_left.2 ⟨h.unused u hu a ha, List.singleton_disjoint.2 (hnew a ha)⟩

/-- A packet that others are to follow. -/
theorem Accounts.stored (h : l.Accounts frames limit s.pending) (parse : Packet.parse frame = .ok p)
    (next : p.number = s.expected p.message) (more : p.number ≠ p.total) :
    (l.enter frames.length (some (p, .ok .stored))).Accounts (frames ++ [frame]) limit
      ((s.opened p.message).2.put (s.extended p)).pending := by
  obtain ⟨⟨packets, htraced, hnumber, hdata⟩, hunused⟩ := h.joined parse next
  have hother := h.of_subset frame (s.pending_opened_sublist p.message).subset
  -- there is a number after that of a packet which is not the last one
  have hnext : (p.number + 1).toNat = (packets ++ [p]).length + 1 := by
    have hwithin := (Packet.sensible_of_parse parse).2
    rw [UInt32.lt_iff_toNat_lt] at hwithin
    have hne : p.number.toNat ≠ p.total.toNat := fun heq => more (UInt32.toNat_inj.1 heq)
    have htotal := p.total.toNat_lt
    have hone : (1 : UInt32).toNat = 1 := rfl
    rw [UInt32.toNat_add, List.length_append, List.length_singleton]
    omega
  constructor
  case traced =>
    intro u hu
    rcases Receiver.mem_put_iff.1 hu with ⟨hu, hid⟩ | rfl
    · rw [unfinished_enter_stored_of_ne _ _ (by rwa [Receiver.message_extended] at hid)]
      exact hother.traced u hu
    · rw [Receiver.message_extended, unfinished_enter_stored]
      exact ⟨packets ++ [p], List.concat_ne_nil _ _, htraced, hnext, hdata⟩
  case unused =>
    intro u hu a ha
    rcases Receiver.mem_put_iff.1 hu with ⟨hu, hid⟩ | rfl
    · rw [unfinished_enter_stored_of_ne _ _ (by rwa [Receiver.message_extended] at hid)]
      exact hother.unused u hu a ha
    · rw [Receiver.message_extended, unfinished_enter_stored]
      exact hunused a ha
  case genuine => exact hother.genuine
  case apart => exact hother.apart

/-- The last packet of a message. -/
theorem Accounts.completed (h : l.Accounts frames limit s.pending) (parse : Packet.parse frame = .ok p)
    (next : p.number = s.expected p.message)
    (short : (s.gathered p.message ++ p.payload).length ≤ limit) (last : p.number = p.total) :
    (l.enter frames.length
        (some (p, .ok (.complete (s.gathered p.message ++ p.payload))))).Accounts
      (frames ++ [frame]) limit ((s.opened p.message).2.forget p.message).pending := by
  obtain ⟨⟨packets, htraced, hnumber, hdata⟩, hunused⟩ := h.joined parse next
  have hother := h.of_subset frame (s.pending_opened_sublist p.message).subset
  have hgenuine : Assembled.Genuine (frames ++ [frame]) limit
      ⟨l.joined frames.length p, s.gathered p.message ++ p.payload⟩ := by
    refine ⟨⟨p.message, packets, p, htraced, ?_, hdata⟩, short⟩
    rw [← last, hnumber, List.length_append, List.length_singleton]
  constructor
  case traced =>
    intro u hu
    exact hother.traced u (Receiver.mem_forget_iff.1 hu).1
  case unused =>
    intro u hu
    obtain ⟨hu, hid⟩ := Receiver.mem_forget_iff.1 hu
    obtain ⟨_, _, hu', _⟩ := hother.traced u hu
    refine List.forall_mem_append.2 ⟨hother.unused u hu, List.forall_mem_singleton.2 ?_⟩
    exact hu'.disjoint htraced hid
  case genuine => exact List.forall_mem_append.2 ⟨hother.genuine, List.forall_mem_singleton.2 hgenuine⟩
  case apart =>
    refine List.pairwise_append.2 ⟨hother.apart, List.pairwise_singleton _ _, ?_⟩
    intro a ha
    exact List.forall_mem_singleton.2 (List.disjoint_symm (hunused a ha))

/-- Whatever comes of a packet, the table and the ledger stay in order. -/
theorem Accounts.enter {outcome : Except StreamError Progress} (h : l.Accounts frames limit s.pending)
    (parse : Packet.parse frame = .ok p) (accepted : s.Accepted limit p outcome s') :
    (l.enter frames.length (some (p, outcome))).Accounts (frames ++ [frame]) limit s'.pending := by
  have hopened := (s.pending_opened_sublist p.message).subset
  cases accepted with
  | repeated _ => exact h.of_subset frame (List.Subset.refl _)
  | stray _ _ => exact h.of_subset frame fun u hu => (Receiver.mem_forget_iff.1 hu).1
  | tooLong _ _ _ => exact h.of_subset frame fun u hu => hopened (Receiver.mem_forget_iff.1 hu).1
  | stored _ next _ more => exact h.stored parse next more
  | completed _ next short last => exact h.completed parse next short last

end Ledger

/-! ## Messages completed -/

namespace PacketStream

/-- The bytes of the message that a frame completes. -/
def Receipt.completes : Receipt → Option Bytes
  | some (_, .ok (.complete data)) => some data
  | _ => none

/-- The messages that frames complete, in order, each with the place of the frame that completes it. -/
def completions (receipts : List Receipt) : List (Nat × Bytes) :=
  receipts.zipIdx.filterMap fun receipt => (Receipt.completes receipt.1).map (receipt.2, ·)

/-- The last receipt adds the message that it completes, if it does. -/
theorem completions_concat (receipts : List Receipt) (receipt : Receipt) :
    completions (receipts ++ [receipt]) =
      completions receipts ++ ((Receipt.completes receipt).map (receipts.length, ·)).toList := by
  unfold completions
  rw [List.zipIdx_append, List.filterMap_append]
  cases h : Receipt.completes receipt <;> simp [h]

/-- The ledger has all messages completed, and each ends with the frame that completed it. -/
theorem made_ofReceipts (receipts : List Receipt) :
    (Ledger.ofReceipts receipts).made.map (fun a => (a.places.getLast?, a.data)) =
      (completions receipts).map fun c => (some c.1, c.2) := by
  induction receipts using List.reverseRecOn with
  | nil => rfl
  | append_singleton receipts receipt ih =>
    rw [Ledger.ofReceipts_concat, completions_concat, List.map_append, ← ih]
    have hlast : ∀ place p (l : Ledger), (l.joined place p).getLast? = some place := by
      intro place p l
      unfold Ledger.joined
      split
      · rfl
      · exact List.getLast?_concat
    rcases receipt with _ | ⟨p, _ | _ | _ | data⟩
    · simp [Ledger.enter, Receipt.completes]
    · simp [Ledger.enter, Receipt.completes]
    · simp [Ledger.enter, Receipt.completes]
    · simp [Ledger.enter, Receipt.completes]
    · simp [Ledger.enter, Receipt.completes, hlast]

variable {κ : Type} (sink : FrameSink κ) {s : PacketStream κ}

/-- What comes of frames that are fed one after another. -/
def receipts : List Bytes → PacketStream κ → List Receipt
  | [], _ => []
  | frame :: frames, s => s.receipt frame :: receipts frames (s.feed sink frame).2

/-- The ledger of a stream that is fed frames. -/
def ledger (frames : List Bytes) (s : PacketStream κ) : Ledger := .ofReceipts (s.receipts sink frames)

/-- Every frame has a receipt, be it an empty one. -/
theorem length_receipts (frames : List Bytes) (s : PacketStream κ) :
    (s.receipts sink frames).length = frames.length := by
  induction frames generalizing s with
  | nil => rfl
  | cons frame frames ih => rw [receipts, List.length_cons, ih, List.length_cons]

/-- The last frame is dealt with in the state that the others have left. -/
theorem receipts_concat (frames : List Bytes) (frame : Bytes) (s : PacketStream κ) :
    s.receipts sink (frames ++ [frame]) =
      s.receipts sink frames ++ [(s.feedAll sink frames).2.receipt frame] := by
  induction frames generalizing s with
  | nil => rfl
  | cons first frames ih => rw [List.cons_append, receipts, ih, receipts, feedAll_cons, List.cons_append]

/-- It adds what it does to what they did. -/
theorem feedAll_concat (frames : List Bytes) (frame : Bytes) (s : PacketStream κ) :
    s.feedAll sink (frames ++ [frame]) =
      ((s.feedAll sink frames).1 ++ ((s.feedAll sink frames).2.feed sink frame).1,
        ((s.feedAll sink frames).2.feed sink frame).2) := by
  rw [feedAll_append, feedAll_cons]
  exact congrArg (·, _) (congrArg (_ ++ ·) (List.append_nil _))

/-- It is entered in the ledger behind them. -/
theorem ledger_concat (frames : List Bytes) (frame : Bytes) (s : PacketStream κ) :
    s.ledger sink (frames ++ [frame]) =
      (s.ledger sink frames).enter frames.length ((s.feedAll sink frames).2.receipt frame) := by
  rw [ledger, receipts_concat, Ledger.ofReceipts_concat, length_receipts]
  rfl

/-- A frame delivers the message that it completes, if its bytes are an envelope. -/
theorem messages_feed (frame : Bytes) (s : PacketStream κ) :
    StreamAct.messages (s.feed sink frame).1 =
      (Receipt.completes (s.receipt frame)).toList.filterMap Envelope.decode? := by
  rcases hreceipt : s.receipt frame with _ | ⟨p, outcome⟩
  · exact (feed_of_receipt_none sink hreceipt).1
  · rw [(feed_of_receipt sink hreceipt).2.1]
    rcases outcome with _ | _ | _ | data
    · rfl
    · rfl
    · rfl
    · show StreamAct.messages [StreamAct.ofEnvelope data] = [data].filterMap Envelope.decode?
      unfold StreamAct.ofEnvelope
      cases h : Envelope.decode? data <;> simp [h, StreamAct.messages]

/-- The messages told of are those of the completions that can be read, in order. -/
theorem messages_feedAll (frames : List Bytes) (s : PacketStream κ) :
    StreamAct.messages (s.feedAll sink frames).1 =
      (completions (s.receipts sink frames)).filterMap fun c => Envelope.decode? c.2 := by
  induction frames using List.reverseRecOn with
  | nil => rfl
  | append_singleton frames frame ih =>
    rw [feedAll_concat, StreamAct.messages_append, ih, receipts_concat, completions_concat,
      List.filterMap_append, messages_feed]
    cases Receipt.completes ((s.feedAll sink frames).2.receipt frame) <;> rfl

/-- Whatever a stream is fed, its table of unfinished messages and the ledger are in order. -/
theorem accounts_feedAll (idle : s.receiver.pending = []) (frames : List Bytes) :
    (s.ledger sink frames).Accounts frames s.limit (s.feedAll sink frames).2.receiver.pending ∧
      (s.feedAll sink frames).2.limit = s.limit := by
  induction frames using List.reverseRecOn with
  | nil =>
    refine ⟨?_, rfl⟩
    show Ledger.empty.Accounts [] s.limit s.receiver.pending
    rw [idle]
    exact ⟨List.forall_mem_nil _, List.forall_mem_nil _, List.forall_mem_nil _, .nil⟩
  | append_singleton frames frame ih =>
    obtain ⟨haccounts, hlimit⟩ := ih
    rw [ledger_concat, feedAll_concat]
    rcases hreceipt : (s.feedAll sink frames).2.receipt frame with _ | ⟨p, outcome⟩
    · obtain ⟨_, hpending, hlimit'⟩ := feed_of_receipt_none sink hreceipt
      rw [hpending, hlimit']
      exact ⟨haccounts.of_subset frame (List.Subset.refl _), hlimit⟩
    · obtain ⟨hparse, hfeed, haccepted⟩ := feed_of_receipt sink hreceipt
      rw [hlimit] at haccepted
      rw [hfeed, hlimit]
      exact ⟨haccounts.enter hparse haccepted, rfl⟩

/-- Whatever frames a stream without unfinished messages is fed: the ledger has the messages that they
complete, each with the frame that completes it in the last place, and the listener is told of those among
them that are envelopes. Each was put together from all packets of a message, fed in order, and is no longer
than the limit; and no frame was used for two. -/
theorem genuine_and_apart (idle : s.receiver.pending = []) (frames : List Bytes) :
    (s.ledger sink frames).made.map (fun a => (a.places.getLast?, a.data)) =
      (completions (s.receipts sink frames)).map (fun c => (some c.1, c.2)) ∧
    StreamAct.messages (s.feedAll sink frames).1 =
      (completions (s.receipts sink frames)).filterMap (fun c => Envelope.decode? c.2) ∧
    (∀ a ∈ (s.ledger sink frames).made, a.Genuine frames s.limit) ∧
    (s.ledger sink frames).made.Pairwise fun a b => List.Disjoint a.places b.places := by
  have haccounts := (accounts_feedAll sink idle frames).1
  exact ⟨made_ofReceipts _, messages_feedAll sink frames s, haccounts.genuine, haccounts.apart⟩

/-! ## A peer that keeps to no rule -/

/-- A message in two packets, with a frame that is no packet, a repetition and the beginning of another
message in between; a packet out of order; and then the number of the first message again. -/
def unruly : List Bytes :=
  [Packet.toBytes ⟨5, 1, 2, [1]⟩, [255], Packet.toBytes ⟨5, 1, 2, [1]⟩, Packet.toBytes ⟨6, 1, 3, [9]⟩,
   Packet.toBytes ⟨5, 2, 2, [2]⟩, Packet.toBytes ⟨6, 3, 3, [8]⟩,
   Packet.toBytes ⟨5, 1, 1, Envelope.encode ⟨none, true, []⟩ .client⟩]

/-- In this run two messages are put together, one of frames 0, 4 and one of frame 6, and what is left of the
first number is used for neither. -/
theorem genuine_and_apart_unruly :
    readied.receiver.pending = [] ∧
    (readied.ledger Bench.Sink.frames unruly).made =
      [⟨[0, 4], [1, 2]⟩, ⟨[6], Envelope.encode ⟨none, true, []⟩ .client⟩] ∧
    (∀ a ∈ (readied.ledger Bench.Sink.frames unruly).made, a.Genuine unruly 200) ∧
    StreamAct.messages (readied.feedAll Bench.Sink.frames unruly).1 = [(⟨none, true, []⟩, .client)] := by
  have h := genuine_and_apart Bench.Sink.frames (s := readied) rfl unruly
  exact ⟨rfl, by decide +kernel, h.2.2.1, by decide +kernel⟩

end PacketStream

end DevicePairing
