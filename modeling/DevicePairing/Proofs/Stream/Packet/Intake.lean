import DevicePairing.Stream.Packet.Stream

/-!
# What comes of a packet

`Receiver.Accepted` lists what may come of a packet that a receiver takes in, with all that is known in each
case, so that later proofs take its cases apart and not the function. Next to it stand the facts about the
table of unfinished messages that the cases refer to: what is in it after a message is given up, after one
is recorded, and after room is made for one.

A stream is fed frames. `PacketStream.receipt` is what came of a frame that is a packet; every other frame
leaves the table as it is and delivers nothing (`PacketStream.feed_of_receipt_none`).
-/

namespace DevicePairing

namespace Receiver

variable {id : UInt32} {s : Receiver} {p : Packet} {u r : Unfinished}

/-! ## The table of unfinished messages -/

/-- What is found for a message is in the table and is of that message. -/
theorem mem_of_find? (h : s.find? id = some u) : u ∈ s.pending ∧ u.message = id :=
  ⟨List.mem_of_find?_eq_some h, by simpa using List.find?_some h⟩

/-- Nothing is found for a message of which nothing is in the table. -/
theorem find?_eq_none_iff : s.find? id = none ↔ ∀ u ∈ s.pending, u.message ≠ id := by
  simp [find?]

/-- To forget a message takes its entries out and no others. -/
theorem mem_forget_iff : u ∈ (s.forget id).pending ↔ u ∈ s.pending ∧ u.message ≠ id := by
  simp [forget]

/-- To put an entry in takes the place of those of the same message. -/
theorem mem_put_iff :
    u ∈ (s.put r).pending ↔ (u ∈ s.pending ∧ u.message ≠ r.message) ∨ u = r := by
  rw [← mem_forget_iff]
  simp [put]

/-- A message that is forgotten is not found, and all others are found as before. -/
theorem find?_forget (id other : UInt32) (s : Receiver) :
    (s.forget id).find? other = if other = id then none else s.find? other := by
  unfold find? forget
  rw [List.find?_filter]
  by_cases h : other = id
  · rw [if_pos h, List.find?_eq_none]
    simp [h]
  · rw [if_neg h]
    congr 1
    funext u
    by_cases hu : u.message = other <;> simp [hu, h]

/-- An entry that is put in is found for its message, and all others are found as before. -/
theorem find?_put (r : Unfinished) (other : UInt32) (s : Receiver) :
    (s.put r).find? other = if other = r.message then some r else s.find? other := by
  have hforget := find?_forget r.message other s
  unfold find? at hforget ⊢
  show ((s.forget r.message).pending ++ [r]).find? _ = _
  rw [List.find?_append, hforget]
  by_cases h : other = r.message
  · simp [h]
  · simp [h, Ne.symm h]

/-- To forget a message leaves at most one entry for each. -/
theorem nodup_forget (h : (s.pending.map (·.message)).Nodup) (id : UInt32) :
    ((s.forget id).pending.map (·.message)).Nodup :=
  h.sublist (List.filter_sublist.map _)

/-- So does to put an entry in. -/
theorem nodup_put (h : (s.pending.map (·.message)).Nodup) (r : Unfinished) :
    ((s.put r).pending.map (·.message)).Nodup := by
  have hforget := nodup_forget h r.message
  unfold put
  rw [List.map_append, List.map_singleton, List.nodup_append]
  refine ⟨hforget, List.pairwise_singleton _ _, ?_⟩
  rintro id hid _ hr rfl
  obtain ⟨u, hu, hmessage⟩ := List.mem_map.1 hid
  exact (mem_forget_iff.1 hu).2 (hmessage.trans (List.mem_singleton.1 hr))

/-- To drop the oldest entry moves none. -/
theorem dropOldest_sublist (rs : List Unfinished) : (dropOldest rs).Sublist rs := by
  unfold dropOldest
  split
  · exact List.eraseP_sublist
  · exact List.Sublist.refl rs

/-- To make room moves none, either. -/
theorem makeRoom_sublist (rs : List Unfinished) : (makeRoom rs).Sublist rs := by
  unfold makeRoom
  induction rs.length + 1 - maxPending with
  | zero => exact List.Sublist.refl rs
  | succ n ih => exact (dropOldest_sublist _).trans ih

/-- Nothing is dropped while there is room. -/
theorem makeRoom_of_lt {rs : List Unfinished} (room : rs.length < maxPending) : makeRoom rs = rs := by
  unfold makeRoom
  rw [Nat.sub_eq_zero_of_le room]
  rfl

/-! ## The message of a packet -/

/-- The bytes that have arrived of a message. -/
def gathered (id : UInt32) (s : Receiver) : Bytes := (s.opened id).1.data

/-- A message of which something has arrived is gone on with. -/
theorem opened_of_find? (h : s.find? id = some u) : s.opened id = (u, s) := by
  simp [opened, h]

/-- A message of which nothing has arrived is begun with the next stamp, once there is room for it. -/
theorem opened_of_none (h : s.find? id = none) :
    s.opened id = (⟨id, 1, [], s.started + 1⟩,
      { s with pending := makeRoom s.pending, started := s.started + 1 }) := by
  simp [opened, h]

/-- What is found of a message is what has arrived of it. -/
theorem gathered_of_find? (h : s.find? id = some u) : s.gathered id = u.data := by
  rw [gathered, opened_of_find? h]

/-- Of a message that is not found nothing has arrived. -/
theorem gathered_of_none (h : s.find? id = none) : s.gathered id = [] := by
  rw [gathered, opened_of_none h]

/-- The packet that a message waits for stands in its entry. -/
theorem expected_of_find? (h : s.find? id = some u) : s.expected id = u.next := by
  rw [expected, h]

/-- A message that is not found waits for its first packet. -/
theorem expected_of_none (h : s.find? id = none) : s.expected id = 1 := by
  rw [expected, h]

/-- The entry that is opened is that of the message. -/
@[simp] theorem message_opened (id : UInt32) (s : Receiver) : (s.opened id).1.message = id := by
  rcases h : s.find? id with _ | u
  · rw [opened_of_none h]
  · rw [opened_of_find? h]
    exact (mem_of_find? h).2

/-- To open a message has no part in the exchange of versions. -/
@[simp] theorem exchanged_opened (id : UInt32) (s : Receiver) :
    (s.opened id).2.exchanged = s.exchanged := by
  rcases h : s.find? id with _ | u
  · rw [opened_of_none h]
  · rw [opened_of_find? h]

/-- It completes nothing. -/
@[simp] theorem lastCompleted_opened (id : UInt32) (s : Receiver) :
    (s.opened id).2.lastCompleted = s.lastCompleted := by
  rcases h : s.find? id with _ | u
  · rw [opened_of_none h]
  · rw [opened_of_find? h]

/-- It takes out at most what room has to be made for. -/
theorem pending_opened_sublist (id : UInt32) (s : Receiver) :
    (s.opened id).2.pending.Sublist s.pending := by
  rcases h : s.find? id with _ | u
  · rw [opened_of_none h]
    exact makeRoom_sublist s.pending
  · simp [opened_of_find? h]

/-- A message for which there is room, or which has been begun, pushes no other out. -/
theorem pending_opened (room : s.find? id = none → s.pending.length < maxPending) :
    (s.opened id).2.pending = s.pending := by
  rcases h : s.find? id with _ | u
  · rw [opened_of_none h]
    exact makeRoom_of_lt (room h)
  · rw [opened_of_find? h]

/-! ## The cases -/

/-- What a message comes to with one more packet. -/
def extended (p : Packet) (s : Receiver) : Unfinished :=
  { (s.opened p.message).1 with next := p.number + 1, data := s.gathered p.message ++ p.payload }

/-- A message with one more packet is the same message. -/
@[simp] theorem message_extended (p : Packet) (s : Receiver) :
    (s.extended p).message = p.message := message_opened ..

/-- What may come of a packet. -/
inductive Accepted (limit : Nat) (p : Packet) (s : Receiver) :
    Except StreamError Progress → Receiver → Prop where
  /-- It had been seen before. -/
  | repeated (seen : s.isRepeated p) : Accepted limit p s (.ok .duplicate) s
  /-- It is not the one its message waits for. -/
  | stray (unseen : ¬ s.isRepeated p) (other : p.number ≠ s.expected p.message) :
    Accepted limit p s (.error (.outOfOrder p.message (s.expected p.message) p.number))
      (s.forget p.message)
  /-- It makes its message too long. -/
  | tooLong (unseen : ¬ s.isRepeated p) (next : p.number = s.expected p.message)
    (long : limit < (s.gathered p.message ++ p.payload).length) :
    Accepted limit p s
      (.error (.messageTooLarge (s.gathered p.message ++ p.payload).length limit))
      ((s.opened p.message).2.forget p.message)
  /-- Others are to follow it. -/
  | stored (unseen : ¬ s.isRepeated p) (next : p.number = s.expected p.message)
    (short : (s.gathered p.message ++ p.payload).length ≤ limit) (more : p.number ≠ p.total) :
    Accepted limit p s (.ok .stored) ((s.opened p.message).2.put (s.extended p))
  /-- It is the last one of its message. -/
  | completed (unseen : ¬ s.isRepeated p) (next : p.number = s.expected p.message)
    (short : (s.gathered p.message ++ p.payload).length ≤ limit) (last : p.number = p.total) :
    Accepted limit p s (.ok (.complete (s.gathered p.message ++ p.payload)))
      { (s.opened p.message).2.forget p.message with lastCompleted := some (p.message, p.number) }

/-- Nothing else can come of a packet. -/
theorem accepted_accept (limit : Nat) (p : Packet) (s : Receiver) :
    Accepted limit p s (s.accept limit p).1 (s.accept limit p).2 := by
  unfold accept
  by_cases seen : s.isRepeated p
  · rw [if_pos seen]
    exact .repeated seen
  rw [if_neg seen]
  by_cases next : p.number = s.expected p.message
  · rw [if_neg (not_not_intro next)]
    dsimp only
    by_cases long : limit < ((s.opened p.message).1.data ++ p.payload).length
    · rw [if_pos long]
      exact .tooLong seen next long
    rw [if_neg long]
    by_cases last : p.number = p.total
    · rw [if_neg (not_not_intro last)]
      exact .completed seen next (Nat.not_lt.1 long) last
    · rw [if_pos last]
      exact .stored seen next (Nat.not_lt.1 long) last
  · rw [if_pos next]
    exact .stray seen next

end Receiver

/-- A packet that was read has a number that its total allows. -/
theorem Packet.sensible_of_parse {frame : Bytes} {p : Packet} (h : Packet.parse frame = .ok p) :
    p.number ≠ 0 ∧ ¬ p.total < p.number := by
  unfold Packet.parse at h
  split at h
  · cases h
  dsimp only at h
  split at h
  · cases h
  · next sensible =>
    cases h
    exact not_or.1 sensible

namespace PacketStream

variable {κ : Type} (sink : FrameSink κ)

/-! ## Frames -/

/-- Takes in frames one after another. -/
def feedAll : List Bytes → PacketStream κ → List StreamAct × PacketStream κ
  | [], s => ([], s)
  | frame :: frames, s =>
    let (acts, s) := s.feed sink frame
    let (acts', s) := feedAll frames s
    (acts ++ acts', s)

/-- The second frame is taken in where the first one has left the stream. -/
theorem feedAll_cons (frame : Bytes) (frames : List Bytes) (s : PacketStream κ) :
    s.feedAll sink (frame :: frames) =
      ((s.feed sink frame).1 ++ ((s.feed sink frame).2.feedAll sink frames).1,
        ((s.feed sink frame).2.feedAll sink frames).2) := rfl

/-- Frames may be taken in in two parts. -/
theorem feedAll_append (frames frames' : List Bytes) (s : PacketStream κ) :
    s.feedAll sink (frames ++ frames') =
      ((s.feedAll sink frames).1 ++ ((s.feedAll sink frames).2.feedAll sink frames').1,
        ((s.feedAll sink frames).2.feedAll sink frames').2) := by
  induction frames generalizing s with
  | nil => rfl
  | cons frame frames ih =>
    rw [List.cons_append, feedAll_cons, ih, feedAll_cons, List.append_assoc]

variable {s : PacketStream κ}

/-- What the listener is told when a packet has been looked at. -/
def told : Except StreamError Progress → List StreamAct
  | .ok (.complete data) => [.ofEnvelope data]
  | .ok _ => []
  | .error e => [.reported e]

/-- After the exchange a frame that is a packet is taken in as one, and the listener told what came of it. -/
theorem feed_of_parse {frame : Bytes} {p : Packet} (exchanged : s.receiver.exchanged = true)
    (parse : Packet.parse frame = .ok p) :
    s.feed sink frame = (told (s.receiver.accept s.limit p).1,
      { s with receiver := (s.receiver.accept s.limit p).2 }) := by
  unfold feed
  rw [if_pos exchanged, parse]
  rfl

/-- So the frame of a packet is, if its number is among those that it may have. -/
theorem feed_toBytes {p : Packet} (exchanged : s.receiver.exchanged = true)
    (positive : p.number ≠ 0) (among : ¬ p.total < p.number) :
    s.feed sink p.toBytes = (told (s.receiver.accept s.limit p).1,
      { s with receiver := (s.receiver.accept s.limit p).2 }) :=
  feed_of_parse sink exchanged (Packet.parse_toBytes positive among)

/-- What came of a frame: the packet that it is, and the outcome for that packet; nothing if it is no packet,
or if versions have not been exchanged yet. -/
abbrev Receipt := Option (Packet × Except StreamError Progress)

/-- What comes of a frame. -/
def receipt (frame : Bytes) (s : PacketStream κ) : Receipt :=
  if s.receiver.exchanged then
    match Packet.parse frame with
    | .ok p => some (p, (s.receiver.accept s.limit p).1)
    | .error _ => none
  else none

/-- There is a receipt exactly for a packet that comes in after the exchange, and it has what came of it. -/
theorem receipt_eq_some_iff {frame : Bytes} {p : Packet} {outcome : Except StreamError Progress} :
    s.receipt frame = some (p, outcome) ↔ s.receiver.exchanged = true ∧ Packet.parse frame = .ok p ∧
      (s.receiver.accept s.limit p).1 = outcome := by
  unfold receipt
  cases hexchanged : s.receiver.exchanged with
  | false => simp
  | true => cases hparse : Packet.parse frame with
    | error _ => simp
    | ok q =>
      simp only [if_true, Option.some.injEq, Prod.mk.injEq, Except.ok.injEq, true_and]
      exact and_congr_right fun hq => by rw [hq]

/-- A frame with a receipt is dealt with as the receipt says. -/
theorem feed_of_receipt {frame : Bytes} {p : Packet} {outcome : Except StreamError Progress}
    (h : s.receipt frame = some (p, outcome)) :
    Packet.parse frame = .ok p ∧ s.feed sink frame =
      (told outcome, { s with receiver := (s.receiver.accept s.limit p).2 }) ∧
      s.receiver.Accepted s.limit p outcome (s.receiver.accept s.limit p).2 := by
  obtain ⟨exchanged, parse, rfl⟩ := receipt_eq_some_iff.1 h
  exact ⟨parse, feed_of_parse sink exchanged parse, s.receiver.accepted_accept s.limit p⟩

/-- Stating versions tells the listener of no message, and leaves everything but the link and the state of
the exchange as it is. -/
theorem exchange_cases (frame : Bytes) (s : PacketStream κ) :
    StreamAct.messages (s.exchange sink frame).2.1 = [] ∧ ∃ link exchanged,
      (s.exchange sink frame).2.2 = { s with link, receiver := { s.receiver with exchanged } } := by
  unfold exchange
  split
  · exact ⟨rfl, s.link, s.receiver.exchanged, rfl⟩
  split
  · split
    · exact ⟨rfl, s.link, true, rfl⟩
    · unfold begin hand
      rcases sink.send VersionOffer.supported.encode s.link with ⟨_ | _, link⟩
      · exact ⟨rfl, link, s.receiver.exchanged, rfl⟩
      · exact ⟨rfl, link, true, rfl⟩
  · exact ⟨rfl, s.link, s.receiver.exchanged, rfl⟩

/-- A frame that is no packet delivers nothing and leaves the table as it is. -/
theorem feed_of_receipt_none {frame : Bytes} (h : s.receipt frame = none) :
    StreamAct.messages (s.feed sink frame).1 = [] ∧
      (s.feed sink frame).2.receiver.pending = s.receiver.pending ∧
      (s.feed sink frame).2.limit = s.limit := by
  unfold receipt at h
  unfold feed
  split at h
  · next exchanged =>
    rw [if_pos exchanged]
    split at h
    · cases h
    · next parse =>
      rw [parse]
      exact ⟨rfl, rfl, rfl⟩
  · next early =>
    rw [if_neg early]
    obtain ⟨hmessages, link, exchanged, hstate⟩ := exchange_cases sink frame s
    rcases hexchange : s.exchange sink frame with ⟨_ | _, acts, s'⟩ <;> rw [hexchange] at hmessages hstate
    · obtain rfl : s' = _ := hstate
      refine ⟨?_, rfl, rfl⟩
      rw [StreamAct.messages_append, hmessages]
      rfl
    · obtain rfl : s' = _ := hstate
      exact ⟨hmessages, rfl, rfl⟩

end PacketStream

end DevicePairing
