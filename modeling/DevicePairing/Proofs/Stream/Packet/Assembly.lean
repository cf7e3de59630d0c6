import DevicePairing.Proofs.Stream.Packet.Intake
import DevicePairing.Proofs.Stream.Packet.Pieces

/-!
# Messages put together

The receiving side of a packet stream that is fed the packets of one message, in order and with nothing in
between, tells its listener of that message and of nothing else (`PacketStream.feedAll_message`). The
induction is on the pieces; its invariant, `Receiver.Collects`, is that the pieces so far are all that is
unfinished, and that the message is not the one completed last. The latter is what keeps the first packet
from being taken for a repetition.
-/

namespace DevicePairing

namespace Receiver

/-- All that is unfinished are the given bytes of one message, of which a certain packet comes next. -/
structure Collects (id next : UInt32) (data : Bytes) (s : Receiver) : Prop where
  /-- Versions have been exchanged. -/
  exchanged : s.exchanged = true
  /-- Either the first packet comes next and nothing is there, or the message is the only one begun. -/
  pending : (next = 1 ∧ data = [] ∧ s.pending = []) ∨
    (1 < next ∧ ∃ stamp, s.pending = [⟨id, next, data, stamp⟩])
  /-- The message is not the one completed last. -/
  incomplete : ∀ number, s.lastCompleted ≠ some (id, number)

/-- Nothing is unfinished, and the given message was not completed last. -/
structure ReadyFor (id : UInt32) (s : Receiver) : Prop where
  /-- Versions have been exchanged. -/
  exchanged : s.exchanged = true
  /-- Nothing is unfinished. -/
  pending : s.pending = []
  /-- The message is not the one completed last. -/
  incomplete : ∀ number, s.lastCompleted ≠ some (id, number)

variable {id next : UInt32} {data : Bytes} {s : Receiver} {p : Packet} {limit : Nat}

/-- Where nothing is unfinished the first packet comes next. -/
theorem ReadyFor.collects (h : s.ReadyFor id) : s.Collects id 1 [] :=
  ⟨h.exchanged, .inl ⟨rfl, rfl, h.pending⟩, h.incomplete⟩

/-- What the table has of the message; without the message there would be nothing in it. -/
theorem Collects.found (h : s.Collects id next data) :
    s.expected id = next ∧ s.gathered id = data ∧ ((s.opened id).2.forget id).pending = [] := by
  rcases h.pending with ⟨rfl, rfl, hp⟩ | ⟨_, stamp, hp⟩
  · have hnone : s.find? id = none := by simp [find?, hp]
    rw [expected_of_none hnone, gathered_of_none hnone, opened_of_none hnone]
    simp [hp, forget, makeRoom, maxPending, Nat.repeat]
  · have hfind : s.find? id = some ⟨id, next, data, stamp⟩ := by simp [find?, hp]
    rw [expected_of_find? hfind, gathered_of_find? hfind, opened_of_find? hfind]
    simp [hp, forget]

/-- The packet that comes next is no repetition of the one before it. -/
theorem Collects.not_isRepeated (h : s.Collects id next data) (message : p.message = id)
    (number : p.number = next) : ¬ s.isRepeated p := by
  rintro (hlast | ⟨_, hrepeated⟩)
  · exact h.incomplete _ (message ▸ hlast)
  · rw [message, h.found.1, number] at hrepeated
    grind

/-- The packet that comes next is taken in. -/
theorem Collects.accept (h : s.Collects id next data) (message : p.message = id)
    (number : p.number = next) (short : (data ++ p.payload).length ≤ limit) :
    s.accept limit p =
      if p.number ≠ p.total then (.ok .stored, (s.opened id).2.put (s.extended p))
      else
        (.ok (.complete (data ++ p.payload)),
          { (s.opened id).2.forget id with lastCompleted := some (id, p.number) }) := by
  obtain ⟨hexpected, hgathered, _⟩ := h.found
  have haccepted := accepted_accept limit p s
  rcases haccept : s.accept limit p with ⟨outcome, s'⟩
  rw [haccept] at haccepted
  subst message
  cases haccepted with
  | repeated seen => exact absurd seen (h.not_isRepeated rfl number)
  | stray _ other => exact absurd (number.trans hexpected.symm) other
  | tooLong _ _ long =>
    rw [hgathered] at long
    exact absurd long (Nat.not_lt.2 short)
  | stored _ _ _ more =>
    rw [if_pos more]
    rfl
  | completed _ _ _ last => rw [if_neg (not_not_intro last), hgathered]

/-- A packet that is not the last one is added to what is there. -/
theorem Collects.accept_stored (h : s.Collects id next data) (message : p.message = id)
    (number : p.number = next) (short : (data ++ p.payload).length ≤ limit)
    (more : p.number ≠ p.total) (unwrapped : 1 < next + 1) :
    ∃ s', s.accept limit p = (.ok .stored, s') ∧ s'.Collects id (next + 1) (data ++ p.payload) := by
  have haccept := h.accept message number short
  rw [if_pos more] at haccept
  refine ⟨_, haccept, (exchanged_opened id s).trans h.exchanged,
    .inr ⟨unwrapped, (s.opened id).1.stamp, ?_⟩, fun n => ?_⟩
  · obtain ⟨_, hgathered, hforget⟩ := h.found
    have hextended : s.extended p = ⟨id, next + 1, data ++ p.payload, (s.opened id).1.stamp⟩ := by
      rw [extended, message, hgathered, number, message_opened]
    rw [hextended, put, hforget, List.nil_append]
  · show (s.opened id).2.lastCompleted ≠ some (id, n)
    rw [lastCompleted_opened]
    exact h.incomplete n

/-- The last packet completes the message. -/
theorem Collects.accept_complete (h : s.Collects id next data) (message : p.message = id)
    (number : p.number = next) (short : (data ++ p.payload).length ≤ limit)
    (last : p.number = p.total) :
    ∃ s', s.accept limit p = (.ok (.complete (data ++ p.payload)), s') ∧ s'.exchanged = true ∧
      s'.pending = [] ∧ s'.lastCompleted = some (id, p.number) := by
  have haccept := h.accept message number short
  rw [if_neg (not_not_intro last)] at haccept
  exact ⟨_, haccept, (exchanged_opened id s).trans h.exchanged, h.found.2.2, rfl⟩

end Receiver

namespace PacketStream

variable {κ : Type} (sink : FrameSink κ)

variable {s : PacketStream κ}

/-- The rest of a message, from the packet that comes next on, completes it. -/
theorem feedAll_completing {id : UInt32} {k : Nat} {packets : List Packet}
    (completing : Packet.Completing id k packets) (positive : 1 ≤ k) {data : Bytes} {s : PacketStream κ}
    (collects : s.receiver.Collects id (UInt32.ofNat k) data)
    (short : (data ++ packets.flatMap (·.payload)).length ≤ s.limit) :
    ∃ s', s.feedAll sink (packets.map Packet.toBytes) =
        ([.ofEnvelope (data ++ packets.flatMap (·.payload))], s') ∧ s'.limit = s.limit ∧
      s'.receiver.exchanged = true ∧ s'.receiver.pending = [] ∧
      ∃ number, s'.receiver.lastCompleted = some (id, number) := by
  have hnonzero {p : Packet} (number : 1 ≤ p.number.toNat) : p.number ≠ 0 := by
    intro h
    rw [h] at number
    cases number
  induction completing generalizing data s with
  | @last k p message number final =>
    rw [List.flatMap_singleton] at short ⊢
    have hnext : p.number = UInt32.ofNat k := by rw [← number, UInt32.ofNat_toNat]
    have hamong : ¬ p.total < p.number := final ▸ UInt32.lt_irrefl p.number
    obtain ⟨s', haccept, hexchanged, hpending, hcompleted⟩ :=
      collects.accept_complete message hnext short final
    refine ⟨{ s with receiver := s' }, ?_, rfl, hexchanged, hpending, _, hcompleted⟩
    rw [List.map_singleton, feedAll_cons,
      feed_toBytes sink collects.exchanged (hnonzero (number ▸ positive)) hamong, haccept]
    rfl
  | @more k p packets message number others rest ih =>
    rw [List.flatMap_cons, ← List.append_assoc] at short ⊢
    have hnext : p.number = UInt32.ofNat k := by rw [← number, UInt32.ofNat_toNat]
    have hless : p.number.toNat < p.total.toNat := UInt32.lt_iff_toNat_lt.1 others
    have hamong : ¬ p.total < p.number := by
      rw [UInt32.lt_iff_toNat_lt]
      omega
    have hfirst : (data ++ p.payload).length ≤ s.limit := by
      rw [List.length_append] at short
      omega
    have hunwrapped : 1 < UInt32.ofNat k + 1 := by
      have htotal := p.total.toNat_lt
      rw [← hnext, UInt32.lt_iff_toNat_lt, UInt32.toNat_add, show (1 : UInt32).toNat = 1 from rfl,
        Nat.mod_eq_of_lt (by omega)]
      omega
    obtain ⟨s', haccept, hcollects⟩ := collects.accept_stored message hnext hfirst
      (fun h => UInt32.ne_of_lt others h) hunwrapped
    rw [show UInt32.ofNat k + 1 = UInt32.ofNat (k + 1) from (UInt32.ofNat_add k 1).symm] at hcollects
    obtain ⟨s'', hfeed, hlimit, hreceiver⟩ :=
      ih (Nat.le_succ_of_le positive) (s := { s with receiver := s' }) hcollects short
    refine ⟨s'', ?_, hlimit, hreceiver⟩
    rw [List.map_cons, feedAll_cons,
      feed_toBytes sink collects.exchanged (hnonzero (number ▸ positive)) hamong, haccept, hfeed]
    rfl

/-- A message arrives whole: fed its packets, a stream that is ready for it tells of its envelope and is
ready for every other message. -/
theorem feedAll_message {data : Bytes} {id : UInt32} {size : Nat} {packets : List Packet}
    (split : Packet.split data id size = .ok packets) (ready : s.receiver.ReadyFor id)
    (short : data.length ≤ s.limit) :
    ∃ s', s.feedAll sink (packets.map Packet.toBytes) = ([.ofEnvelope data], s') ∧
      s'.limit = s.limit ∧ ∀ id', id' ≠ id → s'.receiver.ReadyFor id' := by
  obtain ⟨pieces, hne, rfl, hcount, rfl⟩ := Packet.split_eq_ok split
  have hcompleting : Packet.Completing id 1 (Packet.numbered id (UInt32.ofNat pieces.length) 1 pieces) :=
    Packet.completing_numbered (Nat.lt_succ_of_le hcount) hne (Nat.add_comm ..)
  rw [← Packet.payloads_numbered id (UInt32.ofNat pieces.length) 1 pieces] at short ⊢
  obtain ⟨s', hfeed, hlimit, hexchanged, hpending, number, hlast⟩ :=
    feedAll_completing sink hcompleting (Nat.le_refl 1) ready.collects short
  refine ⟨s', hfeed, hlimit, fun id' hid => ⟨hexchanged, hpending, fun n h => ?_⟩⟩
  rw [hlast] at h
  cases h
  exact hid rfl

end PacketStream

end DevicePairing
