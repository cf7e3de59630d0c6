import DevicePairing.Proofs.Stream.Packet.Provenance

/-!
# What packets say of their number

Every packet says how many packets its message has. These totals are looked at one by one and never compared:
the first packet a message waits for whose number is its own total completes the message, whatever the packets
before it said. So a message may be put together from packets that disagree, for instance from the beginning of
one message and the end of a shorter one with the same number.

`PacketStream.agreed_iff_uniform` says what the totals of the packets of a completed message have to be, and that
all of them are the number of its packets exactly if they agree with each other. That no more is asked of them
is `PacketStream.feedAll_completing`. The proof goes along the ledger of the frames used: all packets of an
unfinished message said that others follow them (`Ledger.Ahead`).
-/

namespace DevicePairing

/-- The totals that the packets of a completed message state, in order. -/
def Assembled.totals (frames : List Bytes) (a : Assembled) : List UInt32 :=
  (a.places.map fun place => frames[place]?.map Packet.parse).filterMap fun read =>
    (read.bind Except.toOption).map (·.total)

/-- Every packet of the message states how many packets it was put together from. -/
def Assembled.Agreed (frames : List Bytes) (a : Assembled) : Prop :=
  ∀ total ∈ a.totals frames, total.toNat = a.places.length

/-- No two packets of the message state different totals. -/
def Assembled.Uniform (frames : List Bytes) (a : Assembled) : Prop :=
  ∀ total ∈ a.totals frames, ∀ total' ∈ a.totals frames, total = total'

namespace Packet

variable {frames : List Bytes} {id : UInt32} {places : List Nat} {packets : List Packet} {last : Packet}
  {place : Nat}

/-- The frame at a place is a packet, and says that others follow it. -/
def Announces (frames : List Bytes) (place : Nat) : Prop :=
  ∃ p, frames[place]?.map Packet.parse = some (.ok p) ∧ p.number < p.total

/-- What a frame says it says whatever comes in later. -/
theorem Announces.append (h : Announces frames place) (more : List Bytes) :
    Announces (frames ++ more) place := by
  obtain ⟨p, hparse, hless⟩ := h
  obtain ⟨frame, hframe, _⟩ := Option.map_eq_some_iff.1 hparse
  have hplace : place < frames.length := (List.getElem?_eq_some_iff.1 hframe).1
  exact ⟨p, by rwa [List.getElem?_append_left hplace], hless⟩

/-- A packet that is not the last of its message says that others follow. -/
theorem number_lt_of_parse {frame : Bytes} {p : Packet} (parse : Packet.parse frame = .ok p)
    (more : p.number ≠ p.total) : p.number < p.total :=
  UInt32.lt_of_le_of_ne (UInt32.not_lt.1 (sensible_of_parse parse).2) more

/-- Packets that say that others follow, and then one that says that it is the last, complete a message if their
numbers are consecutive. -/
theorem completing_concat {k : Nat} (message : ∀ p ∈ packets ++ [last], p.message = id)
    (numbers : (packets ++ [last]).map (·.number.toNat) = List.range' k (packets ++ [last]).length)
    (others : ∀ p ∈ packets, p.number < p.total) (final : last.number = last.total) :
    Completing id k (packets ++ [last]) := by
  induction packets generalizing k with
  | nil =>
    obtain ⟨hnumber, _⟩ := List.cons.inj numbers
    exact .last (message last List.mem_cons_self) hnumber final
  | cons p packets ih =>
    obtain ⟨hmessage, hmessages⟩ := List.forall_mem_cons.1 message
    obtain ⟨hless, hothers⟩ := List.forall_mem_cons.1 others
    obtain ⟨hnumber, hnumbers⟩ := List.cons.inj numbers
    exact .more hmessage hnumber hless (ih hmessages hnumbers hothers)

/-- The packets that a message was put together from complete it, if all but the last one say that others
follow them. -/
theorem Traced.completing (h : Traced frames id places (packets ++ [last]))
    (ahead : ∀ place ∈ places.dropLast, Announces frames place)
    (total : last.total.toNat = (packets ++ [last]).length) :
    Completing id 1 (packets ++ [last]) := by
  have hparsed : places.dropLast.map (fun place => frames[place]?.map Packet.parse) =
      packets.map fun p => some (.ok p) := by
    rw [List.map_dropLast, h.parsed, List.map_append, List.map_singleton, List.dropLast_concat]
  refine completing_concat h.message h.numbers (fun p hp => ?_) ?_
  · have hmem := List.mem_map_of_mem (f := fun p => some (Except.ok (ε := StreamError) p)) hp
    rw [← hparsed] at hmem
    obtain ⟨place, hplace, hread⟩ := List.mem_map.1 hmem
    obtain ⟨q, hq, hless⟩ := ahead place hplace
    rw [hread] at hq
    cases hq
    exact hless
  · have hnumbers := h.numbers
    rw [List.map_append, List.map_singleton, List.length_append, List.length_singleton,
      List.range'_concat] at hnumbers
    have hnumber : last.number.toNat = 1 + packets.length := by
      have hlast := (List.append_inj' hnumbers rfl).2
      simpa using hlast
    refine UInt32.toNat_inj.1 ?_
    rw [hnumber, total, List.length_append, List.length_singleton, Nat.add_comm]

/-- The totals of a message are those that its packets state. -/
theorem Traced.totals {a : Assembled} (h : Traced frames id a.places packets) :
    a.totals frames = packets.map (·.total) := by
  unfold Assembled.totals
  rw [h.parsed, List.filterMap_map]
  exact congrFun (List.filterMap_eq_map (f := Packet.total)) packets

/-- The total that the last packet states is its own number. -/
theorem Completing.total_last {k : Nat} (h : Completing id k packets) :
    ∃ last ∈ packets, last.total.toNat + 1 = k + packets.length := by
  induction h with
  | @last k p _ number final => exact ⟨p, List.mem_cons_self, by rw [← final, number]; rfl⟩
  | more _ _ _ _ ih =>
    obtain ⟨last, hlast, htotal⟩ := ih
    refine ⟨last, List.mem_cons_of_mem _ hlast, ?_⟩
    rw [htotal, List.length_cons]
    omega

end Packet

namespace Ledger

variable {frames : List Bytes} {frame : Bytes} {s s' : Receiver} {l : Ledger} {p : Packet}
  {pending : List Unfinished} {limit : Nat}

/-- The packets noted said that others follow them, but for the last ones of messages completed. -/
structure Ahead (frames : List Bytes) (pending : List Unfinished) (l : Ledger) : Prop where
  /-- All packets of an unfinished message did. -/
  unfinished : ∀ u ∈ pending, ∀ place ∈ l.unfinished u.message, Packet.Announces frames place
  /-- And those of a completed message before the last one. -/
  made : ∀ a ∈ l.made, ∀ place ∈ a.places.dropLast, Packet.Announces frames place

/-- A frame that is not used may do no more than remove messages from the table. -/
theorem Ahead.of_subset (h : l.Ahead frames s.pending) (frame : Bytes) (subset : pending ⊆ s.pending) :
    l.Ahead (frames ++ [frame]) pending where
  unfinished u hu place hplace := (h.unfinished u (subset hu) place hplace).append [frame]
  made a ha place hplace := (h.made a ha place hplace).append [frame]

/-- The packets that the one a message waits for is added to said that others follow. -/
theorem Ahead.joined (h : l.Ahead frames s.pending) (next : p.number = s.expected p.message) (n : Nat) :
    ∀ place ∈ (l.joined n p).dropLast, Packet.Announces frames place := by
  intro place hplace
  unfold Ledger.joined at hplace
  by_cases first : p.number = 1
  · rw [if_pos first] at hplace
    cases hplace
  rw [if_neg first, List.dropLast_concat] at hplace
  rcases hfind : s.find? p.message with _ | u
  · exact absurd (next.trans (Receiver.expected_of_none hfind)) first
  · obtain ⟨hu, hmessage⟩ := Receiver.mem_of_find? hfind
    exact h.unfinished u hu place (hmessage ▸ hplace)

/-- A place that is noted was noted before or is the last one. -/
theorem mem_joined {place n : Nat} (h : place ∈ l.joined n p) :
    place ∈ (l.joined n p).dropLast ∨ place = n := by
  unfold Ledger.joined at h ⊢
  by_cases first : p.number = 1
  · rw [if_pos first] at h
    exact .inr (List.mem_singleton.1 h)
  · rw [if_neg first] at h ⊢
    rw [List.dropLast_concat]
    exact (List.mem_append.1 h).imp id List.mem_singleton.1

/-- Whatever comes of a packet, the packets noted said that others follow. -/
theorem Ahead.enter {outcome : Except StreamError Progress} (h : l.Ahead frames s.pending)
    (parse : Packet.parse frame = .ok p) (accepted : s.Accepted limit p outcome s') :
    (l.enter frames.length (some (p, outcome))).Ahead (frames ++ [frame]) s'.pending := by
  have hopened := (s.pending_opened_sublist p.message).subset
  have hother := h.of_subset frame hopened
  cases accepted with
  | repeated _ => exact h.of_subset frame (List.Subset.refl _)
  | stray _ _ => exact h.of_subset frame fun u hu => (Receiver.mem_forget_iff.1 hu).1
  | tooLong _ _ _ => exact h.of_subset frame fun u hu => hopened (Receiver.mem_forget_iff.1 hu).1
  | stored _ next _ more =>
    refine ⟨fun u hu place hplace => ?_, hother.made⟩
    rcases Receiver.mem_put_iff.1 hu with ⟨hu, hid⟩ | rfl
    · rw [unfinished_enter_stored_of_ne _ _ (by rwa [Receiver.message_extended] at hid)] at hplace
      exact hother.unfinished u hu place hplace
    · rw [Receiver.message_extended, unfinished_enter_stored] at hplace
      rcases mem_joined hplace with hbefore | rfl
      · exact (h.joined next frames.length place hbefore).append [frame]
      · exact ⟨p, by simp [parse], Packet.number_lt_of_parse parse more⟩
  | completed _ next _ _ =>
    refine ⟨fun u hu => hother.unfinished u (Receiver.mem_forget_iff.1 hu).1, ?_⟩
    refine List.forall_mem_append.2 ⟨hother.made, List.forall_mem_singleton.2 fun place hplace => ?_⟩
    exact (h.joined next frames.length place hplace).append [frame]

end Ledger

namespace PacketStream

variable {κ : Type} (sink : FrameSink κ) {s : PacketStream κ}

/-- So the packets noted are ahead of the end after any frames. -/
theorem ahead_feedAll (idle : s.receiver.pending = []) (frames : List Bytes) :
    (s.ledger sink frames).Ahead frames (s.feedAll sink frames).2.receiver.pending := by
  induction frames using List.reverseRecOn with
  | nil =>
    show Ledger.empty.Ahead [] s.receiver.pending
    rw [idle]
    exact ⟨List.forall_mem_nil _, List.forall_mem_nil _⟩
  | append_singleton frames frame ih =>
    rw [ledger_concat, feedAll_concat]
    rcases hreceipt : (s.feedAll sink frames).2.receipt frame with _ | ⟨p, outcome⟩
    · rw [(feed_of_receipt_none sink hreceipt).2.1]
      exact ih.of_subset frame (List.Subset.refl _)
    · obtain ⟨hparse, hfeed, haccepted⟩ := feed_of_receipt sink hreceipt
      rw [hfeed]
      exact ih.enter hparse haccepted

/-- Whatever frames a stream without unfinished messages is fed: each message completed was put together from
packets numbered from one on, of which all but the last one state a total above their number, and the last one
the number of packets. All of them state the number of packets exactly if no two packets of a completed message
state different totals. -/
theorem agreed_iff_uniform (idle : s.receiver.pending = []) (frames : List Bytes) :
    (∀ a ∈ (s.ledger sink frames).made, ∃ id packets, Packet.Traced frames id a.places packets ∧
      Packet.Completing id 1 packets ∧ a.data = packets.flatMap (·.payload)) ∧
    ((∀ a ∈ (s.ledger sink frames).made, a.Agreed frames) ↔
      ∀ a ∈ (s.ledger sink frames).made, a.Uniform frames) := by
  have hcompleting : ∀ a ∈ (s.ledger sink frames).made, ∃ id packets,
      Packet.Traced frames id a.places packets ∧ Packet.Completing id 1 packets ∧
        a.data = packets.flatMap (·.payload) := by
    intro a ha
    obtain ⟨id, packets, last, htraced, htotal, hdata⟩ :=
      ((accounts_feedAll sink idle frames).1.genuine a ha).whole
    have hahead := (ahead_feedAll sink idle frames).made a ha
    exact ⟨id, packets ++ [last], htraced, htraced.completing hahead htotal, hdata⟩
  refine ⟨hcompleting, forall₂_congr fun a ha => ⟨fun agreed => ?_, fun uniform => ?_⟩⟩
  · intro total htotal total' htotal'
    exact UInt32.toNat_inj.1 ((agreed total htotal).trans (agreed total' htotal').symm)
  · obtain ⟨id, packets, htraced, hcompletes, _⟩ := hcompleting a ha
    have hcount := htraced.length_places
    obtain ⟨last, hlast, htotal⟩ := hcompletes.total_last
    have hstated : last.total ∈ a.totals frames := by
      rw [htraced.totals]
      exact List.mem_map_of_mem hlast
    -- the last packet states the number of packets, and the others state what it does
    intro total hmem
    rw [uniform total hmem last.total hstated]
    omega

/-! ## Messages that are spliced -/

/-- In this run both messages have packets that agree in their totals. -/
theorem agreed_unruly :
    readied.receiver.pending = [] ∧
    (readied.ledger Bench.Sink.frames unruly).made.map (·.totals unruly) = [[2, 2], [1]] ∧
    ∀ a ∈ (readied.ledger Bench.Sink.frames unruly).made, a.Agreed unruly := by
  have htotals : (readied.ledger Bench.Sink.frames unruly).made.map (·.totals unruly) =
      [[2, 2], [1]] := by decide +kernel
  refine ⟨rfl, htotals, (agreed_iff_uniform Bench.Sink.frames (s := readied) rfl unruly).2.2 ?_⟩
  intro a ha
  have hmem := List.mem_map_of_mem (f := fun a => Assembled.totals unruly a) ha
  rw [htotals] at hmem
  unfold Assembled.Uniform
  rcases List.mem_cons.1 hmem with h | h
  · rw [h]
    simp
  · rw [List.mem_singleton.1 h]
    simp

/-- The beginning of a message of three packets, and the end of one of two. -/
def spliced : List Bytes :=
  [Packet.toBytes ⟨7, 1, 3, (Envelope.encode ⟨none, false, []⟩ .client).take 40⟩,
    Packet.toBytes ⟨7, 2, 2, (Envelope.encode ⟨none, false, []⟩ .client).drop 40⟩]

/-- They are put together to a message. -/
theorem not_agreed_spliced :
    (readied.ledger Bench.Sink.frames spliced).made.map (·.totals spliced) = [[3, 2]] ∧
    ¬ (∀ a ∈ (readied.ledger Bench.Sink.frames spliced).made, a.Agreed spliced) ∧
    StreamAct.messages (readied.feedAll Bench.Sink.frames spliced).1 =
      [(⟨none, false, []⟩, .client)] := by
  have hmade : (readied.ledger Bench.Sink.frames spliced).made =
      [⟨[0, 1], Envelope.encode ⟨none, false, []⟩ .client⟩] := by decide +kernel
  refine ⟨by decide +kernel, fun agreed => ?_, by decide +kernel⟩
  rw [hmade] at agreed
  have hthree : (3 : UInt32) ∈ Assembled.totals spliced
      ⟨[0, 1], Envelope.encode ⟨none, false, []⟩ .client⟩ := by decide +kernel
  have hcount := agreed _ List.mem_cons_self 3 hthree
  revert hcount
  decide

end PacketStream

end DevicePairing
