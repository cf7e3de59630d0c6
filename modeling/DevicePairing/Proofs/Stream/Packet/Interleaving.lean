import DevicePairing.Proofs.Stream.Packet.Delivery
import DevicePairing.Proofs.Stream.Packet.Intake
import Mathlib.Data.Finset.Card
import Mathlib.Data.Fintype.Basic

/-!
# Interleaved messages

The packets of several messages may arrive interleaved, and packets may arrive again. As long as no more than
four messages are under way at a time, and only the latest packet of a message under way or the last packet
of the message finished last is repeated, every message is delivered once, when its last packet arrives, and
nothing is reported (`PacketStream.arrives_interleaved`).

`Interleaved` says what may be fed: how far each message has come is kept in a `Position`, and every packet
fed is the next one of some message or one of the allowed repetitions. The invariant, `Mirrors`, is that the
table of unfinished messages holds exactly the messages under way, each with the bytes of the packets fed.
Since there is room for one more whenever a message begins, nothing is ever pushed out of the table.
-/

namespace DevicePairing

/-! ## Messages cut into packets -/

/-- A message whose envelope is cut into packets under some number. They are so few that the number after
the last one can be written too. -/
structure Parcel where
  /-- The message. -/
  message : DeviceMessage
  /-- What it is for. -/
  operation : Operation
  /-- The number it has on the link. -/
  id : UInt32
  /-- The size of frames. -/
  size : Nat
  /-- The packets. -/
  packets : List Packet
  /-- They are what the envelope is cut into. -/
  split : Packet.split (Envelope.encode message operation) id size = .ok packets
  /-- They are not too many. -/
  countable : packets.length < Packet.maxTotal

namespace Parcel

/-- The envelope. -/
def data (c : Parcel) : Bytes := Envelope.encode c.message c.operation

/-- What a listener is told when the message arrives. -/
def delivery (c : Parcel) : StreamAct := .delivered c.message c.operation

/-- The part of the envelope that the first packets hold. -/
def front (c : Parcel) (count : Nat) : Bytes := (c.packets.take count).flatMap (·.payload)

variable {c : Parcel} {place : Nat} {p : Packet}

/-- A parcel has a packet, even if its message is empty. -/
theorem packets_ne_nil (c : Parcel) : c.packets ≠ [] := Packet.ne_nil_of_split c.split

/-- All packets together hold the whole envelope. -/
theorem front_length (c : Parcel) : c.front c.packets.length = c.data := by
  rw [front, List.take_length, Packet.payloads_of_split c.split, data]

/-- No packets hold nothing. -/
theorem front_zero (c : Parcel) : c.front 0 = [] := rfl

/-- One more packet holds its payload more. -/
theorem front_succ (h : c.packets[place]? = some p) :
    c.front (place + 1) = c.front place ++ p.payload := by
  unfold front
  rw [List.take_add_one, h, List.flatMap_append]
  simp

/-- What the first packets hold is no more than the envelope. -/
theorem length_front_le (c : Parcel) (count : Nat) : (c.front count).length ≤ c.data.length := by
  have hall : c.front count ++ (c.packets.drop count).flatMap (·.payload) = c.data := by
    rw [← front_length, front, front, List.take_length, ← List.flatMap_append, List.take_append_drop]
  rw [← hall, List.length_append]
  exact Nat.le_add_right ..

/-- The place of a packet is below their number. -/
theorem lt_length (h : c.packets[place]? = some p) : place < c.packets.length :=
  (List.getElem?_eq_some_iff.1 h).1

/-- The header of a packet. -/
theorem header (h : c.packets[place]? = some p) :
    p.message = c.id ∧ p.number = UInt32.ofNat (place + 1) ∧
      p.total = UInt32.ofNat c.packets.length := by
  obtain ⟨pieces, _, _, _, hpackets⟩ := Packet.split_eq_ok c.split
  have hlength : c.packets.length = pieces.length := by rw [hpackets, Packet.length_numbered]
  rw [hlength]
  rw [hpackets, Packet.getElem?_numbered, Nat.add_comm 1] at h
  obtain ⟨piece, _, rfl⟩ := Option.map_eq_some_iff.1 h
  exact ⟨rfl, rfl, rfl⟩

/-- Numbers of packets do not wrap, nor does the one after the last. -/
theorem toNat_number (c : Parcel) {count : Nat} (h : count ≤ c.packets.length) :
    (UInt32.ofNat (count + 1)).toNat = count + 1 ∧ (UInt32.ofNat count).toNat = count := by
  have hcountable := c.countable
  have hsize : UInt32.size = Packet.maxTotal + 1 := rfl
  exact ⟨UInt32.toNat_ofNat_of_lt' (by omega), UInt32.toNat_ofNat_of_lt' (by omega)⟩

/-- The number of a packet is one that its total allows. -/
theorem sensible (h : c.packets[place]? = some p) : p.number ≠ 0 ∧ ¬ p.total < p.number :=
  Packet.sensible_of_parse (Packet.parse_toBytes_of_split c.split (List.mem_of_getElem? h))

/-- A packet is the last one exactly if its number is the total. -/
theorem number_eq_total_iff (h : c.packets[place]? = some p) :
    p.number = p.total ↔ place + 1 = c.packets.length := by
  have hlt := lt_length h
  obtain ⟨_, hnumber, htotal⟩ := header h
  have hcount := (c.toNat_number (Nat.le_of_lt hlt)).1
  have hlength := (c.toNat_number (Nat.le_refl _)).2
  rw [hnumber, htotal, ← UInt32.toNat_inj, hcount, hlength]

end Parcel

/-! ## What may be fed -/

/-- How far messages have come. -/
structure Position (ι : Type) where
  /-- How many packets of each message have been fed. -/
  fed : ι → Nat
  /-- The message finished last. -/
  finished : Option ι

namespace Position

variable {ι : Type}

/-- Nothing has been fed. -/
def start : Position ι := ⟨fun _ => 0, none⟩

/-- One more packet of a message has been fed. -/
def advance [DecidableEq ι] (c : Position ι) (i : ι) : Position ι :=
  { c with fed := Function.update c.fed i (c.fed i + 1) }

/-- A message has been begun and is not finished. -/
def Underway (mail : ι → Parcel) (c : Position ι) (i : ι) : Prop :=
  0 < c.fed i ∧ c.fed i < (mail i).packets.length

instance (mail : ι → Parcel) (c : Position ι) : DecidablePred (c.Underway mail) :=
  fun _ => inferInstanceAs (Decidable (_ ∧ _))

section
variable [DecidableEq ι] (c : Position ι) {i j : ι}

/-- Of the message that has advanced one more packet was fed. -/
theorem fed_advance (i : ι) : (c.advance i).fed i = c.fed i + 1 := Function.update_self ..

/-- Of the others no more were. -/
theorem fed_advance_of_ne (h : j ≠ i) : (c.advance i).fed j = c.fed j := Function.update_of_ne h ..

/-- So the others are under way exactly if they were. -/
theorem underway_advance_of_ne (mail : ι → Parcel) (h : j ≠ i) :
    (c.advance i).Underway mail j ↔ c.Underway mail j := by
  unfold Underway
  rw [fed_advance_of_ne c h]

end

/-- The messages under way. -/
def underway [Fintype ι] (mail : ι → Parcel) (c : Position ι) : Finset ι :=
  Finset.univ.filter (c.Underway mail)

end Position

/-- From a position on, packets that finish all messages, with the messages in the order in which their last
packets are fed. -/
inductive Interleaved {ι : Type} [Fintype ι] [DecidableEq ι] (mail : ι → Parcel) :
    Position ι → List Packet → List ι → Prop where
  /-- All packets of all messages have been fed. -/
  | done {c : Position ι} (whole : ∀ i, c.fed i = (mail i).packets.length) : Interleaved mail c [] []
  /-- The next packet of a message, not the last one. When a message begins, at most three others are under
  way. -/
  | more {c : Position ι} {i : ι} {p : Packet} {packets : List Packet} {order : List ι}
    (place : (mail i).packets[c.fed i]? = some p) (room : c.fed i = 0 → (c.underway mail).card ≤ 3)
    (others : c.fed i + 1 ≠ (mail i).packets.length)
    (rest : Interleaved mail (c.advance i) packets order) : Interleaved mail c (p :: packets) order
  /-- The last packet of a message. -/
  | last {c : Position ι} {i : ι} {p : Packet} {packets : List Packet} {order : List ι}
    (place : (mail i).packets[c.fed i]? = some p) (room : c.fed i = 0 → (c.underway mail).card ≤ 3)
    (ends : c.fed i + 1 = (mail i).packets.length)
    (rest : Interleaved mail { c.advance i with finished := some i } packets order) :
    Interleaved mail c (p :: packets) (i :: order)
  /-- Again the packet fed latest of a message under way, or of the message finished last. -/
  | again {c : Position ι} {i : ι} {p : Packet} {packets : List Packet} {order : List ι}
    (place : (mail i).packets[c.fed i - 1]? = some p)
    (latest : c.Underway mail i ∨ c.finished = some i)
    (rest : Interleaved mail c packets order) : Interleaved mail c (p :: packets) order

variable {ι : Type} [Fintype ι] [DecidableEq ι] {mail : ι → Parcel} {c : Position ι}

/-- The messages that are finished from a position on are those that were not finished before, each once. -/
theorem Interleaved.finishes {packets : List Packet} {order : List ι}
    (h : Interleaved mail c packets order) :
    order.Nodup ∧ ∀ i, i ∈ order ↔ c.fed i < (mail i).packets.length := by
  induction h with
  | done whole =>
    constructor
    · exact List.nodup_nil
    · intro i
      rw [whole i]
      simp
  | @more c i _ _ _ place _ others _ ih =>
    have hlt := Parcel.lt_length place
    constructor
    · exact ih.1
    · intro j
      rw [ih.2 j]
      by_cases hj : j = i
      · rw [hj, c.fed_advance]
        omega
      · rw [c.fed_advance_of_ne hj]
  | @last c i _ _ order place _ ends _ ih =>
    have hlt := Parcel.lt_length place
    have hmem : ∀ j, j ∈ order ↔ (c.advance i).fed j < (mail j).packets.length := ih.2
    have hnew : i ∉ order := by
      intro hi
      have hfed := (hmem i).1 hi
      rw [c.fed_advance] at hfed
      omega
    constructor
    · exact List.nodup_cons.2 ⟨hnew, ih.1⟩
    · intro j
      rw [List.mem_cons, hmem j]
      by_cases hj : j = i
      · simp [hj, hlt]
      · simp [c.fed_advance_of_ne hj, hj]
  | again _ _ _ ih => exact ih

/-! ## The table of unfinished messages -/

namespace Receiver

/-- The table holds the messages under way, each with the bytes of the packets fed. -/
structure Mirrors {ι : Type} (mail : ι → Parcel) (c : Position ι) (s : Receiver) : Prop where
  /-- Versions have been exchanged. -/
  exchanged : s.exchanged = true
  /-- No message occurs twice. -/
  distinct : (s.pending.map (·.message)).Nodup
  /-- Every message under way is there. -/
  begun : ∀ i, c.Underway mail i → ∃ u ∈ s.pending, u.message = (mail i).id
  /-- What is there is a message under way, as far as it has come. -/
  known : ∀ u ∈ s.pending, ∃ i, c.Underway mail i ∧ u.message = (mail i).id ∧
    u.next = UInt32.ofNat (c.fed i + 1) ∧ u.data = (mail i).front (c.fed i)
  /-- The message finished last is the one completed last. -/
  completed : s.lastCompleted =
    c.finished.map fun i => ((mail i).id, UInt32.ofNat (mail i).packets.length)
  /-- All its packets have been fed. -/
  whole : ∀ i, c.finished = some i → c.fed i = (mail i).packets.length

variable {ι : Type} {mail : ι → Parcel} {c : Position ι} {s : Receiver} {i : ι} {p : Packet}
  {limit : Nat}

/-- An empty table mirrors a start. -/
theorem mirrors_start (mail : ι → Parcel) :
    Mirrors mail Position.start { Receiver.fresh with exchanged := true } where
  exchanged := rfl
  distinct := List.nodup_nil
  begun _ h := absurd h.1 (Nat.lt_irrefl 0)
  known _ h := absurd h List.not_mem_nil
  completed := rfl
  whole _ h := nomatch h

section
variable (h : Mirrors mail c s) (numbers : Function.Injective fun i => (mail i).id)
include h numbers

/-- A message under way is found, with the bytes of its packets and the number of the next one. -/
theorem Mirrors.find?_underway (underway : c.Underway mail i) :
    ∃ u, s.find? (mail i).id = some u ∧ u.next = UInt32.ofNat (c.fed i + 1) ∧
      u.data = (mail i).front (c.fed i) := by
  rcases hfind : s.find? (mail i).id with _ | u
  · obtain ⟨u, hu, hmessage⟩ := h.begun i underway
    exact absurd hmessage (find?_eq_none_iff.1 hfind u hu)
  · obtain ⟨hu, hmessage⟩ := mem_of_find? hfind
    obtain ⟨j, _, hj, hnext, hdata⟩ := h.known u hu
    obtain rfl : j = i := numbers (hj.symm.trans hmessage)
    exact ⟨u, rfl, hnext, hdata⟩

/-- A message that is not under way is not found. -/
theorem Mirrors.find?_idle (idle : ¬ c.Underway mail i) : s.find? (mail i).id = none := by
  rw [find?_eq_none_iff]
  intro u hu hmessage
  obtain ⟨j, hunderway, hj, _⟩ := h.known u hu
  obtain rfl : j = i := numbers (hj.symm.trans hmessage)
  exact idle hunderway

/-- A message waits for the next packet, and what has arrived of it is in front of that packet. -/
theorem Mirrors.expected (unfinished : c.fed i < (mail i).packets.length) :
    s.expected (mail i).id = UInt32.ofNat (c.fed i + 1) ∧
      s.gathered (mail i).id = (mail i).front (c.fed i) := by
  by_cases hzero : c.fed i = 0
  · have hidle : ¬ c.Underway mail i := by
      rintro ⟨hbegun, _⟩
      exact absurd hzero (Nat.ne_of_gt hbegun)
    have hnone := h.find?_idle numbers hidle
    rw [expected_of_none hnone, gathered_of_none hnone, hzero, Parcel.front_zero]
    exact ⟨rfl, rfl⟩
  · obtain ⟨u, hfind, hnext, hdata⟩ :=
      h.find?_underway numbers ⟨Nat.pos_of_ne_zero hzero, unfinished⟩
    rw [expected_of_find? hfind, gathered_of_find? hfind]
    exact ⟨hnext, hdata⟩

/-- The next packet of a message is not taken for a repetition. -/
theorem Mirrors.not_isRepeated (place : (mail i).packets[c.fed i]? = some p) : ¬ s.isRepeated p := by
  have hlt := Parcel.lt_length place
  obtain ⟨hmessage, hnumber, _⟩ := Parcel.header place
  rintro (hlast | ⟨_, hprevious⟩)
  · rw [h.completed] at hlast
    obtain ⟨j, hj, hpair⟩ := Option.map_eq_some_iff.1 hlast
    obtain rfl : j = i := numbers ((congrArg Prod.fst hpair).trans hmessage)
    exact absurd (h.whole j hj) (Nat.ne_of_lt hlt)
  · rw [hmessage, (h.expected numbers hlt).1, ← hnumber] at hprevious
    grind

/-- The packet of a message that was fed latest is. -/
theorem Mirrors.isRepeated (place : (mail i).packets[c.fed i - 1]? = some p)
    (latest : c.Underway mail i ∨ c.finished = some i) : s.isRepeated p := by
  obtain ⟨hmessage, hnumber, _⟩ := Parcel.header place
  rcases latest with hunderway | hfinished
  · have hexpected := (h.expected numbers hunderway.2).1
    have hcount := ((mail i).toNat_number (Nat.le_of_lt hunderway.2)).1
    have hpositive := hunderway.1
    refine .inr ⟨?_, ?_⟩
    · rw [hmessage, hexpected, UInt32.lt_iff_toNat_lt, hcount]
      show 1 < c.fed i + 1
      omega
    · have hstep : UInt32.ofNat (c.fed i + 1) = UInt32.ofNat (c.fed i) + 1 := UInt32.ofNat_add ..
      rw [hmessage, hexpected, hnumber, Nat.sub_add_cancel hpositive, hstep]
      grind
  · have hwhole := h.whole i hfinished
    have hpositive : 0 < c.fed i := by
      rw [hwhole]
      exact List.length_pos_iff.2 (mail i).packets_ne_nil
    refine .inl ?_
    rw [h.completed, hfinished, Option.map_some, hmessage, hnumber, Nat.sub_add_cancel hpositive,
      hwhole]

/-- The next packet of a message is taken in. -/
theorem Mirrors.accept (place : (mail i).packets[c.fed i]? = some p)
    (short : (mail i).data.length ≤ limit) :
    s.accept limit p =
      if c.fed i + 1 = (mail i).packets.length then
        (.ok (.complete (mail i).data),
          { (s.opened p.message).2.forget p.message with lastCompleted := some (p.message, p.number) })
      else (.ok .stored, (s.opened p.message).2.put (s.extended p)) := by
  have hlt := Parcel.lt_length place
  obtain ⟨hmessage, hnumber, _⟩ := Parcel.header place
  obtain ⟨hexpected, hgathered⟩ := h.expected numbers hlt
  have hunseen := h.not_isRepeated numbers place
  have hnext : p.number = s.expected p.message := by rw [hmessage, hexpected, hnumber]
  have hfront : s.gathered p.message ++ p.payload = (mail i).front (c.fed i + 1) := by
    rw [hmessage, hgathered, Parcel.front_succ place]
  have hshort : (s.gathered p.message ++ p.payload).length ≤ limit := by
    rw [hfront]
    exact Nat.le_trans ((mail i).length_front_le _) short
  have haccepted := accepted_accept limit p s
  rcases haccept : s.accept limit p with ⟨outcome, s'⟩
  rw [haccept] at haccepted
  cases haccepted with
  | repeated seen => exact absurd seen hunseen
  | stray _ other => exact absurd hnext other
  | tooLong _ _ long => exact absurd long (Nat.not_lt.2 hshort)
  | stored _ _ _ more =>
    rw [if_neg ((Parcel.number_eq_total_iff place).not.1 more)]
    rfl
  | completed _ _ _ last =>
    have hall := (Parcel.number_eq_total_iff place).1 last
    rw [if_pos hall, hfront, hall, Parcel.front_length]

end

section
variable [DecidableEq ι] (h : Mirrors mail c s)
include h

/-- The packet of one message leaves the others as they are. -/
theorem Mirrors.known_advance {u : Unfinished} (hu : u ∈ s.pending) (other : u.message ≠ (mail i).id) :
    ∃ j, (c.advance i).Underway mail j ∧ u.message = (mail j).id ∧
      u.next = UInt32.ofNat ((c.advance i).fed j + 1) ∧
      u.data = (mail j).front ((c.advance i).fed j) := by
  obtain ⟨j, hj, hmessage, hnext, hdata⟩ := h.known u hu
  have hne : j ≠ i := by
    rintro rfl
    exact other hmessage
  refine ⟨j, (c.underway_advance_of_ne mail hne).2 hj, hmessage, ?_, ?_⟩
  · rw [c.fed_advance_of_ne hne, hnext]
  · rw [c.fed_advance_of_ne hne, hdata]

/-- A message under way besides the one that advances keeps its entry. -/
theorem Mirrors.begun_advance (numbers : Function.Injective fun i => (mail i).id) {j : ι}
    (other : j ≠ i) (underway : (c.advance i).Underway mail j) :
    ∃ u, (u ∈ s.pending ∧ u.message ≠ (mail i).id) ∧ u.message = (mail j).id := by
  obtain ⟨u, hu, hmessage⟩ := h.begun j ((c.underway_advance_of_ne mail other).1 underway)
  exact ⟨u, ⟨hu, fun hi => other (numbers (hmessage.symm.trans hi))⟩, hmessage⟩

end

section
variable [Fintype ι] (h : Mirrors mail c s)
  (numbers : Function.Injective fun i => (mail i).id)
  (place : (mail i).packets[c.fed i]? = some p)
  (room : c.fed i = 0 → (c.underway mail).card ≤ 3)
include h numbers place room

/-- A message that begins finds room. -/
theorem Mirrors.pending_opened : (s.opened (mail i).id).2.pending = s.pending := by
  apply Receiver.pending_opened
  intro hnone
  have hzero : c.fed i = 0 := by
    by_contra hbegun
    obtain ⟨u, hfind, _⟩ := h.find?_underway numbers ⟨Nat.pos_of_ne_zero hbegun, Parcel.lt_length place⟩
    rw [hnone] at hfind
    cases hfind
  have hsubset : (s.pending.map (·.message)).toFinset ⊆
      (c.underway mail).image fun i => (mail i).id := by
    intro id hid
    obtain ⟨u, hu, rfl⟩ := List.mem_map.1 (List.mem_toFinset.1 hid)
    obtain ⟨j, hj, hmessage, _⟩ := h.known u hu
    exact Finset.mem_image.2 ⟨j, Finset.mem_filter.2 ⟨Finset.mem_univ j, hj⟩, hmessage.symm⟩
  calc s.pending.length = (s.pending.map (·.message)).toFinset.card := by
        rw [List.toFinset_card_of_nodup h.distinct, List.length_map]
    _ ≤ ((c.underway mail).image fun i => (mail i).id).card := Finset.card_le_card hsubset
    _ ≤ (c.underway mail).card := Finset.card_image_le
    _ < maxPending := Nat.lt_succ_of_le (room hzero)

variable [DecidableEq ι]

/-- A message goes on. -/
theorem Mirrors.advance (others : c.fed i + 1 ≠ (mail i).packets.length) :
    Mirrors mail (c.advance i) ((s.opened p.message).2.put (s.extended p)) := by
  have hlt := Parcel.lt_length place
  have hpending := h.pending_opened numbers place room
  obtain ⟨hmessage, hnumber, _⟩ := Parcel.header place
  have hextended : (s.extended p).message = (mail i).id := (message_extended p s).trans hmessage
  rw [← hmessage] at hpending
  constructor
  case exchanged => exact (exchanged_opened p.message s).trans h.exchanged
  case distinct => exact nodup_put (by rw [hpending]; exact h.distinct) _
  case begun =>
    intro j hj
    by_cases hi : j = i
    · exact ⟨s.extended p, mem_put_iff.2 (.inr rfl), hi ▸ hextended⟩
    · obtain ⟨u, hother, hu⟩ := h.begun_advance numbers hi hj
      exact ⟨u, mem_put_iff.2 (.inl (by rwa [hpending, hextended])), hu⟩
  case known =>
    intro u hu
    rcases mem_put_iff.1 hu with hother | rfl
    · rw [hpending, hextended] at hother
      exact h.known_advance hother.1 hother.2
    · refine ⟨i, ?_, hextended, ?_, ?_⟩
      · rw [Position.Underway, c.fed_advance]
        omega
      · rw [c.fed_advance, extended, hnumber]
        exact (UInt32.ofNat_add ..).symm
      · rw [c.fed_advance, Parcel.front_succ place, extended, hmessage, (h.expected numbers hlt).2]
  case completed => exact (lastCompleted_opened p.message s).trans h.completed
  case whole =>
    intro j hj
    have hwhole := h.whole j hj
    have hne : j ≠ i := by
      rintro rfl
      omega
    rw [c.fed_advance_of_ne hne, hwhole]

/-- A message is finished. -/
theorem Mirrors.finish (ends : c.fed i + 1 = (mail i).packets.length) :
    Mirrors mail { c.advance i with finished := some i }
      { (s.opened p.message).2.forget p.message with lastCompleted := some (p.message, p.number) } := by
  have hpending := h.pending_opened numbers place room
  obtain ⟨hmessage, hnumber, _⟩ := Parcel.header place
  rw [hmessage]
  constructor
  case exchanged => exact (exchanged_opened (mail i).id s).trans h.exchanged
  case distinct => exact nodup_forget (by rw [hpending]; exact h.distinct) _
  case begun =>
    intro j hj
    have hi : j ≠ i := by
      rintro rfl
      have hlt : (c.advance j).fed j < (mail j).packets.length := hj.2
      rw [c.fed_advance] at hlt
      omega
    obtain ⟨u, hother, hu⟩ := h.begun_advance numbers hi hj
    exact ⟨u, mem_forget_iff.2 (by rwa [hpending]), hu⟩
  case known =>
    intro u hu
    have hother := mem_forget_iff.1 hu
    rw [hpending] at hother
    exact h.known_advance hother.1 hother.2
  case completed =>
    show some ((mail i).id, p.number) = some ((mail i).id, _)
    rw [hnumber, ends]
  case whole =>
    intro j hj
    obtain rfl : i = j := Option.some.inj hj
    exact (c.fed_advance i).trans ends

end

end Receiver

namespace PacketStream

variable {κ : Type} (sink : FrameSink κ) {s : PacketStream κ} {ι : Type} [Fintype ι] [DecidableEq ι]
  {mail : ι → Parcel}

/-- From any position on, exactly the deliveries of the messages that are finished follow. -/
theorem feedAll_interleaved (numbers : Function.Injective fun i => (mail i).id)
    (word : s.limit < capacity 8) (short : ∀ i, (mail i).data.length ≤ s.limit) {c : Position ι}
    {packets : List Packet} {order : List ι} (h : Interleaved mail c packets order)
    (mirrors : s.receiver.Mirrors mail c) :
    (s.feedAll sink (packets.map Packet.toBytes)).1 = order.map fun i => (mail i).delivery := by
  induction h generalizing s with
  | done _ => rfl
  | @more c i p _ _ place room others _ ih =>
    obtain ⟨hpositive, hamong⟩ := Parcel.sensible place
    rw [List.map_cons, feedAll_cons, feed_toBytes sink mirrors.exchanged hpositive hamong,
      mirrors.accept numbers place (short i), if_neg others]
    exact ih (s := { s with receiver := _ }) word short (mirrors.advance numbers place room others)
  | @last c i p _ _ place room ends _ ih =>
    obtain ⟨hpositive, hamong⟩ := Parcel.sensible place
    rw [List.map_cons, feedAll_cons, feed_toBytes sink mirrors.exchanged hpositive hamong,
      mirrors.accept numbers place (short i), if_pos ends, List.map_cons, Parcel.delivery,
      ← StreamAct.ofEnvelope_encode (Nat.lt_of_le_of_lt (short i) word)]
    exact congrArg (_ :: ·)
      (ih (s := { s with receiver := _ }) word short (mirrors.finish numbers place room ends))
  | @again c i p _ _ place latest _ ih =>
    obtain ⟨hpositive, hamong⟩ := Parcel.sensible place
    have haccept : s.receiver.accept s.limit p = (.ok .duplicate, s.receiver) := by
      rw [Receiver.accept, if_pos (mirrors.isRepeated numbers place latest)]
    rw [List.map_cons, feedAll_cons, feed_toBytes sink mirrors.exchanged hpositive hamong, haccept]
    exact ih word short mirrors

/-- A stream that has only exchanged versions is fed the packets of messages with different numbers, in any
interleaving in which at most four messages are under way at a time, and with repetitions. Its listener is
told of every message once, in the order in which their last packets are fed, and of nothing else. -/
theorem arrives_interleaved (fresh : s.receiver = { Receiver.fresh with exchanged := true })
    (word : s.limit < capacity 8) (numbers : Function.Injective fun i => (mail i).id)
    (short : ∀ i, (mail i).data.length ≤ s.limit) {packets : List Packet} {order : List ι}
    (h : Interleaved mail .start packets order) :
    (s.feedAll sink (packets.map Packet.toBytes)).1 = (order.map fun i => (mail i).delivery) ∧
      order.Nodup ∧ ∀ i, i ∈ order := by
  have hmirrors : s.receiver.Mirrors mail .start := by
    rw [fresh]
    exact Receiver.mirrors_start mail
  obtain ⟨hnodup, hmem⟩ := h.finishes
  refine ⟨feedAll_interleaved sink numbers word short h hmirrors, hnodup, ?_⟩
  intro i
  exact (hmem i).2 (List.length_pos_iff.2 (mail i).packets_ne_nil)

/-! ## Three messages at once -/

/-- A message in two packets, one in three and one in a single packet. -/
def threefold : Fin 3 → Parcel
  | 0 =>
    let data := Envelope.encode ⟨none, true, []⟩ .client
    { message := ⟨none, true, []⟩, operation := .client, id := 7, size := 60
      packets := [⟨7, 1, 2, data.take 48⟩, ⟨7, 2, 2, data.drop 48⟩]
      split := by decide +kernel, countable := by decide }
  | 1 =>
    let data := Envelope.encode ⟨none, false, [1, 2, 3]⟩ .handshake
    { message := ⟨none, false, [1, 2, 3]⟩, operation := .handshake, id := 4294967295, size := 42
      packets := [⟨4294967295, 1, 3, data.take 30⟩, ⟨4294967295, 2, 3, (data.drop 30).take 30⟩,
        ⟨4294967295, 3, 3, data.drop 60⟩]
      split := by decide +kernel, countable := by decide }
  | 2 =>
    let data := Envelope.encode ⟨none, false, [4]⟩ .client
    { message := ⟨none, false, [4]⟩, operation := .client, id := 0, size := 200
      packets := [⟨0, 1, 1, data⟩], split := by decide +kernel, countable := by decide }

/-- The first two begin and the third one comes in between; the second packet of the second one and the last
ones of the others come twice. -/
def mingled : List Packet :=
  let first := (threefold 0).packets.get
  let second := (threefold 1).packets.get
  let third := (threefold 2).packets.get
  [first ⟨0, by decide⟩, second ⟨0, by decide⟩, third ⟨0, by decide⟩, third ⟨0, by decide⟩,
   second ⟨1, by decide⟩, second ⟨1, by decide⟩, first ⟨1, by decide⟩, first ⟨1, by decide⟩,
   second ⟨2, by decide⟩]

/-- The packets of the three parcels finish the third one first, then the first one, and then the second one. -/
theorem interleaved_mingled : Interleaved threefold .start mingled [2, 0, 1] := by
  refine .more (i := 0) rfl (fun _ => by decide) (by decide) ?_
  refine .more (i := 1) rfl (fun _ => by decide) (by decide) ?_
  refine .last (i := 2) rfl (fun _ => by decide) (by decide) ?_
  refine .again (i := 2) rfl (.inr rfl) ?_
  refine .more (i := 1) rfl (fun _ => by decide) (by decide) ?_
  refine .again (i := 1) rfl (.inl (by decide)) ?_
  refine .last (i := 0) rfl (fun _ => by decide) (by decide) ?_
  refine .again (i := 0) rfl (.inr rfl) ?_
  refine .last (i := 1) rfl (fun _ => by decide) (by decide) ?_
  exact .done (by decide)

/-- Fed to a stream they arrive in this order, each once. -/
theorem arrives_interleaved_mingled :
    (Function.Injective fun i => (threefold i).id) ∧
    (∀ i, (threefold i).data.length ≤ readied.limit) ∧
    (readied.feedAll Bench.Sink.frames (mingled.map Packet.toBytes)).1 =
      [.delivered ⟨none, false, [4]⟩ .client, .delivered ⟨none, true, []⟩ .client,
       .delivered ⟨none, false, [1, 2, 3]⟩ .handshake] := by
  have hnumbers : Function.Injective fun i => (threefold i).id := by decide
  have hshort : ∀ i, (threefold i).data.length ≤ readied.limit := by decide +kernel
  refine ⟨hnumbers, hshort, ?_⟩
  rw [(arrives_interleaved Bench.Sink.frames rfl (by decide) hnumbers hshort interleaved_mingled).1]
  rfl

end PacketStream

end DevicePairing
