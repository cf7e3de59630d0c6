import DevicePairing.Proofs.Stream.Packet.Table

/-!
# What a rejected packet does to other messages

A packet that is rejected gives up on its own message. What has arrived of other messages is left alone, with
one exception: room for a message is made before its first packet is looked at any closer. If the table is full
and that packet is longer than a message may be, nothing is kept of it, but the oldest message has been dropped
for it (`Receiver.Crowds`). `PacketStream.harmless_iff_not_crowds` says that there is no other exception, that no
more than the oldest message is lost, and that a message which is left alone goes on as if the packet had never
come.

The last part is carried by `Receiver.Even`: two receivers have come equally far with a message. The packets of
that message come to the same for both, whatever else is in their tables.
-/

namespace DevicePairing

namespace Receiver

variable {id : UInt32} {s s' : Receiver} {p : Packet} {u : Unfinished} {limit : Nat} {e : StreamError}

/-- What has arrived of messages other than a given one is the same before and after. -/
def Harmless (id : UInt32) (s s' : Receiver) : Prop := ∀ other, other ≠ id → s'.find? other = s.find? other

/-- A packet begins a message for which there is no room. -/
structure Crowds (p : Packet) (s : Receiver) : Prop where
  /-- It is the first one of its message. -/
  first : p.number = 1
  /-- Nothing has arrived of the message before. -/
  begins : s.find? p.message = none
  /-- There are as many unfinished messages as are kept. -/
  full : maxPending ≤ s.pending.length

instance (p : Packet) (s : Receiver) : Decidable (s.Crowds p) :=
  decidable_of_iff (p.number = 1 ∧ s.find? p.message = none ∧ maxPending ≤ s.pending.length)
    ⟨fun h => ⟨h.1, h.2.1, h.2.2⟩, fun h => ⟨h.first, h.begins, h.full⟩⟩

/-! ## Making room -/

/-- With one entry for each message, what is found for a message is what is in the table of it. -/
theorem find?_eq_some_iff (messages : (s.pending.map (·.message)).Nodup) :
    s.find? id = some u ↔ u ∈ s.pending ∧ u.message = id := by
  refine ⟨mem_of_find?, fun ⟨hu, hid⟩ => ?_⟩
  rcases hfind : s.find? id with _ | v
  · exact absurd hid (find?_eq_none_iff.1 hfind u hu)
  · obtain ⟨hv, hid'⟩ := mem_of_find? hfind
    rw [List.inj_on_of_nodup_map messages hv hu (hid'.trans hid.symm)]

/-- To make room in a full table is to drop the oldest message. -/
theorem makeRoom_of_full {rs : List Unfinished} (full : rs.length = maxPending) :
    makeRoom rs = dropOldest rs := by
  unfold makeRoom
  rw [full]
  rfl

/-- A message that begins while the table is full costs the oldest message, and no other. -/
theorem Tidy.exists_dropped (h : s.Tidy limit) (begins : s.find? id = none)
    (full : maxPending ≤ s.pending.length) :
    ∃ u, IsOldest u s.pending ∧ (s.opened id).2.find? u.message = none ∧
      ∀ other, other ≠ u.message → (s.opened id).2.find? other = s.find? other := by
  have hlength : s.pending.length = maxPending := Nat.le_antisymm h.few full
  have hne : s.pending ≠ [] := by
    intro hnil
    rw [hnil] at hlength
    cases hlength
  obtain ⟨u, holdest, hperm⟩ := exists_oldest hne
  have hpending : (s.opened id).2.pending = dropOldest s.pending := by
    rw [opened_of_none begins, makeRoom_of_full hlength]
  have hdistinct : u.message ∉ (dropOldest s.pending).map (·.message) ∧
      ((dropOldest s.pending).map (·.message)).Nodup :=
    List.nodup_cons.1 ((hperm.map _).nodup_iff.1 h.messages)
  refine ⟨u, holdest, ?_, fun other hother => Option.ext fun v => ?_⟩
  · rw [find?_eq_none_iff, hpending]
    intro v hv hid
    exact hdistinct.1 (hid ▸ List.mem_map_of_mem hv)
  · rw [find?_eq_some_iff (h.opened id).messages, find?_eq_some_iff h.messages, hpending,
      hperm.mem_iff, List.mem_cons]
    refine and_congr_left fun hid => ⟨.inr, fun hv => hv.resolve_left ?_⟩
    rintro rfl
    exact hother hid.symm

/-! ## Rejections -/

/-- To forget a message does no harm to others. -/
theorem harmless_forget (id : UInt32) (s : Receiver) : Harmless id s (s.forget id) := by
  intro other hother
  rw [find?_forget, if_neg hother]

/-- A message for which there is room, or which has been begun, is opened without harm to others. -/
theorem harmless_opened (room : s.find? id = none → s.pending.length < maxPending) :
    Harmless id s ((s.opened id).2.forget id) := by
  intro other hother
  rw [harmless_forget id _ other hother]
  unfold find?
  rw [pending_opened room]

/-- What is left after a rejection, and why: the packet is out of order, or its message is too long. -/
theorem rejected_cases (rejected : (s.accept limit p).1 = .error e) :
    (p.number ≠ s.expected p.message ∧ (s.accept limit p).2 = s.forget p.message) ∨
      (p.number = s.expected p.message ∧
        (s.accept limit p).2 = (s.opened p.message).2.forget p.message) := by
  have haccepted := s.accepted_accept limit p
  rw [rejected] at haccepted
  generalize (s.accept limit p).2 = s' at *
  cases haccepted with
  | stray _ other => exact .inl ⟨other, rfl⟩
  | tooLong _ next _ => exact .inr ⟨next, rfl⟩

/-- A packet that is refused completes nothing. -/
theorem lastCompleted_of_rejected (rejected : (s.accept limit p).1 = .error e) :
    (s.accept limit p).2.lastCompleted = s.lastCompleted := by
  rcases rejected_cases rejected with ⟨_, hstate⟩ | ⟨_, hstate⟩
  · rw [hstate]
    rfl
  · rw [hstate]
    exact lastCompleted_opened p.message s

/-- The packet that has the oldest message dropped and is then rejected itself. -/
theorem Tidy.lost_of_crowds (h : s.Tidy limit) (rejected : (s.accept limit p).1 = .error e)
    (crowds : s.Crowds p) :
    ∃ u, IsOldest u s.pending ∧ (s.accept limit p).2.find? u.message = none ∧
      ∀ other, other ≠ u.message → (s.accept limit p).2.find? other = s.find? other := by
  obtain ⟨u, holdest, hlost, hothers⟩ := h.exists_dropped crowds.begins crowds.full
  rcases rejected_cases rejected with ⟨other, _⟩ | ⟨_, hstate⟩
  · rw [expected_of_none crowds.begins] at other
    exact absurd crowds.first other
  · rw [hstate]
    refine ⟨u, holdest, ?_, fun other hother => ?_⟩
    · rw [find?_forget, hlost, ite_self]
    · rw [find?_forget, hothers other hother]
      split
      · -- its own message had not been begun, and is not afterwards
        next hself => rw [hself, crowds.begins]
      · rfl

/-- A rejected packet leaves other messages alone, unless it has begun a message for which there was no
room. -/
theorem Tidy.harmless_iff (h : s.Tidy limit) (rejected : (s.accept limit p).1 = .error e) :
    Harmless p.message s (s.accept limit p).2 ↔ ¬ s.Crowds p := by
  constructor
  · intro harmless crowds
    obtain ⟨u, holdest, hlost, _⟩ := h.lost_of_crowds rejected crowds
    have hfind : s.find? u.message = some u := (find?_eq_some_iff h.messages).2 ⟨holdest.1, rfl⟩
    have hother : u.message ≠ p.message := by
      intro hself
      rw [hself, crowds.begins] at hfind
      cases hfind
    rw [harmless _ hother, hfind] at hlost
    cases hlost
  · intro uncrowded
    rcases rejected_cases rejected with ⟨_, hstate⟩ | ⟨next, hstate⟩
    · rw [hstate]
      exact harmless_forget p.message s
    · rw [hstate]
      refine harmless_opened fun begins => Nat.lt_of_not_le fun full => ?_
      rw [expected_of_none begins] at next
      exact uncrowded ⟨next, begins, full⟩

/-! ## Equally far with a message -/

/-- Two receivers have come equally far with a message. -/
structure Even (id : UInt32) (s s' : Receiver) : Prop where
  /-- Both have seen versions, or none. -/
  exchanged : s'.exchanged = s.exchanged
  /-- The message waits for the same packet. -/
  expected : s'.expected id = s.expected id
  /-- The same bytes have arrived of it. -/
  gathered : s'.gathered id = s.gathered id
  /-- The same message was completed last. -/
  lastCompleted : s'.lastCompleted = s.lastCompleted

/-- Two receivers in which the same is found of a message are even in it. -/
theorem even_of_find? (found : s'.find? id = s.find? id) (exchanged : s'.exchanged = s.exchanged)
    (lastCompleted : s'.lastCompleted = s.lastCompleted) : Even id s s' := by
  refine ⟨exchanged, by unfold Receiver.expected; rw [found], ?_, lastCompleted⟩
  rcases h : s.find? id with _ | u
  · rw [gathered_of_none h, gathered_of_none (found.trans h)]
  · rw [gathered_of_find? h, gathered_of_find? (found.trans h)]

/-- When both forget the message they are even in it again. -/
theorem Even.forget (exchanged : s'.exchanged = s.exchanged)
    (lastCompleted : s'.lastCompleted = s.lastCompleted) : Even id (s.forget id) (s'.forget id) :=
  even_of_find? (by simp [find?_forget]) exchanged lastCompleted

/-- A packet of the message comes to the same for both, and they go on being equally far with it. -/
theorem Even.accept (h : Even p.message s s') (limit : Nat) :
    (s'.accept limit p).1 = (s.accept limit p).1 ∧
      Even p.message (s.accept limit p).2 (s'.accept limit p).2 := by
  have hrepeated : s'.isRepeated p ↔ s.isRepeated p := by
    unfold isRepeated
    rw [h.lastCompleted, h.expected]
  have hdata : (s'.opened p.message).1.data = (s.opened p.message).1.data := h.gathered
  have hexchanged : (s'.opened p.message).2.exchanged = (s.opened p.message).2.exchanged := by
    rw [exchanged_opened, exchanged_opened, h.exchanged]
  have hlast : (s'.opened p.message).2.lastCompleted = (s.opened p.message).2.lastCompleted := by
    rw [lastCompleted_opened, lastCompleted_opened, h.lastCompleted]
  unfold Receiver.accept
  by_cases seen : s.isRepeated p
  · rw [if_pos seen, if_pos (hrepeated.2 seen)]
    exact ⟨rfl, h⟩
  rw [if_neg seen, if_neg (mt hrepeated.1 seen), h.expected]
  by_cases other : p.number ≠ s.expected p.message
  · rw [if_pos other, if_pos other]
    exact ⟨rfl, .forget h.exchanged h.lastCompleted⟩
  rw [if_neg other, if_neg other]
  dsimp only
  rw [hdata]
  by_cases long : limit < ((s.opened p.message).1.data ++ p.payload).length
  · rw [if_pos long, if_pos long]
    exact ⟨rfl, .forget hexchanged hlast⟩
  rw [if_neg long, if_neg long]
  by_cases more : p.number ≠ p.total
  · rw [if_pos more, if_pos more]
    -- the entries may differ in when their message was begun
    refine ⟨rfl, hexchanged, ?_, ?_, hlast⟩
    · unfold Receiver.expected
      simp [find?_put]
    · rw [gathered_of_find? (by rw [find?_put, if_pos (by simp)]),
        gathered_of_find? (by rw [find?_put, if_pos (by simp)])]
  · rw [if_neg more, if_neg more]
    have hfind : ((s'.opened p.message).2.forget p.message).find? p.message =
        ((s.opened p.message).2.forget p.message).find? p.message := by
      rw [find?_forget, find?_forget, if_pos rfl, if_pos rfl]
    exact ⟨rfl, even_of_find? hfind hexchanged rfl⟩

end Receiver

namespace PacketStream

variable {κ : Type} (sink : FrameSink κ) {s s' : PacketStream κ}

/-- Frames that are packets of a message are told of alike by streams that have come equally far with it. -/
theorem feedAll_of_even {id : UInt32} (limit : s'.limit = s.limit)
    (exchanged : s.receiver.exchanged = true) (even : s.receiver.Even id s'.receiver) {frames : List Bytes}
    (packets : ∀ frame ∈ frames, ∃ p, Packet.parse frame = .ok p ∧ p.message = id) :
    (s'.feedAll sink frames).1 = (s.feedAll sink frames).1 := by
  induction frames generalizing s s' with
  | nil => rfl
  | cons frame frames ih =>
    obtain ⟨⟨p, parse, rfl⟩, hrest⟩ := List.forall_mem_cons.1 packets
    obtain ⟨hsame, heven⟩ := even.accept s.limit
    have hexchanged : (s.receiver.accept s.limit p).2.exchanged = true :=
      (Receiver.exchanged_accept s.limit p s.receiver).trans exchanged
    rw [feedAll_cons, feedAll_cons, feed_of_parse sink exchanged parse,
      feed_of_parse sink (even.exchanged.trans exchanged) parse, limit, hsame]
    exact congrArg (_ ++ ·) (ih rfl hexchanged heven hrest)

/-- Whatever has happened to a new stream: a packet that it rejects leaves what has arrived of other messages
alone, unless it began a message for which there was no room. Then the oldest message is lost, and no other. A
message that is left alone goes on as if the packet had never come. -/
theorem harmless_iff_not_crowds {link : κ} {c : Config} {role : OfferRole}
    (made : ofConfig link c role = .ok s) (is : List Input) {frame : Bytes} {p : Packet} {e : StreamError}
    (rejected : (s.takeAll sink is).receipt frame = some (p, .error e)) :
    (Receiver.Harmless p.message (s.takeAll sink is).receiver
        ((s.takeAll sink is).feed sink frame).2.receiver ↔
      ¬ (s.takeAll sink is).receiver.Crowds p) ∧
    ((s.takeAll sink is).receiver.Crowds p →
      ∃ u, Receiver.IsOldest u (s.takeAll sink is).receiver.pending ∧
        ((s.takeAll sink is).feed sink frame).2.receiver.find? u.message = none ∧
        ∀ other, other ≠ u.message → ((s.takeAll sink is).feed sink frame).2.receiver.find? other =
          (s.takeAll sink is).receiver.find? other) ∧
    ∀ other, ((s.takeAll sink is).feed sink frame).2.receiver.find? other =
        (s.takeAll sink is).receiver.find? other →
      ∀ frames, (∀ frame ∈ frames, ∃ q, Packet.parse frame = .ok q ∧ q.message = other) →
        (((s.takeAll sink is).feed sink frame).2.feedAll sink frames).1 =
          ((s.takeAll sink is).feedAll sink frames).1 := by
  have htidy := (tidy_ofConfig made).takeAll sink is
  generalize s.takeAll sink is = t at *
  obtain ⟨exchanged, parse, houtcome⟩ := receipt_eq_some_iff.1 rejected
  rw [htidy.1] at houtcome
  rw [feed_of_parse sink exchanged parse, htidy.1]
  refine ⟨htidy.2.harmless_iff houtcome, htidy.2.lost_of_crowds houtcome, ?_⟩
  intro other found frames packets
  refine feedAll_of_even sink htidy.1.symm exchanged ?_ packets
  exact Receiver.even_of_find? found (Receiver.exchanged_accept c.maxMessageSize p t.receiver)
    (Receiver.lastCompleted_of_rejected houtcome)

/-! ## A packet of a message that is too long -/

/-- A stream as it is made for messages of at most eighty bytes. -/
def modest : PacketStream Bench.Sink where
  link := ⟨none⟩
  role := .initiator
  size := 100
  roomy := by decide
  limit := 80
  sender := ⟨0, [], false⟩
  receiver := .fresh

/-- The other side's versions, and the first halves of some messages, all with the same content. -/
def halves (ids : List UInt32) : List Input :=
  .fed VersionOffer.supported.encode ::
    ids.map fun id => .fed (Packet.toBytes ⟨id, 1, 2, (Envelope.encode ⟨none, false, []⟩ .client).take 40⟩)

/-- The other half of the first message. -/
def otherHalf : Bytes := Packet.toBytes ⟨1, 2, 2, (Envelope.encode ⟨none, false, []⟩ .client).drop 40⟩

/-- The beginning of a fifth message, which is too long. -/
def bulky : Packet := ⟨5, 1, 2, List.replicate 81 0⟩

/-- With three messages begun, a packet that is too long does them no harm, and the first one is completed. -/
theorem harmless_with_room :
    ofConfig (⟨none⟩ : Bench.Sink) { Config.default with maxWriteSize := 100, maxMessageSize := 80 }
      .initiator = .ok modest ∧
    (modest.takeAll Bench.Sink.frames (halves [1, 2, 3])).receipt bulky.toBytes =
      some (bulky, .error (.messageTooLarge 81 80)) ∧
    Receiver.Harmless 5 (modest.takeAll Bench.Sink.frames (halves [1, 2, 3])).receiver
      ((modest.takeAll Bench.Sink.frames (halves [1, 2, 3])).feed Bench.Sink.frames
        bulky.toBytes).2.receiver ∧
    StreamAct.messages (((modest.takeAll Bench.Sink.frames (halves [1, 2, 3])).feed Bench.Sink.frames
      bulky.toBytes).2.feedAll Bench.Sink.frames [otherHalf]).1 = [(⟨none, false, []⟩, .client)] := by
  have hmade : ofConfig (⟨none⟩ : Bench.Sink)
      { Config.default with maxWriteSize := 100, maxMessageSize := 80 } .initiator = .ok modest := rfl
  have hrejected : (modest.takeAll Bench.Sink.frames (halves [1, 2, 3])).receipt bulky.toBytes =
      some (bulky, .error (.messageTooLarge 81 80)) := by decide +kernel
  obtain ⟨hiff, _, hgoesOn⟩ := harmless_iff_not_crowds Bench.Sink.frames hmade (halves [1, 2, 3]) hrejected
  have hharmless := hiff.2 (by decide +kernel)
  refine ⟨hmade, hrejected, hharmless, ?_⟩
  rw [hgoesOn 1 (hharmless 1 (by decide)) [otherHalf]
    (List.forall_mem_singleton.2 ⟨_, Packet.parse_toBytes (by decide) (by decide), rfl⟩)]
  decide +kernel

/-- With four messages begun, the same packet costs the first one: its other half is out of order. -/
theorem not_harmless_when_full :
    (modest.takeAll Bench.Sink.frames (halves [1, 2, 3, 4])).receipt bulky.toBytes =
      some (bulky, .error (.messageTooLarge 81 80)) ∧
    ¬ Receiver.Harmless 5 (modest.takeAll Bench.Sink.frames (halves [1, 2, 3, 4])).receiver
      ((modest.takeAll Bench.Sink.frames (halves [1, 2, 3, 4])).feed Bench.Sink.frames
        bulky.toBytes).2.receiver ∧
    StreamAct.messages ((modest.takeAll Bench.Sink.frames (halves [1, 2, 3, 4])).feedAll Bench.Sink.frames
      [otherHalf]).1 = [(⟨none, false, []⟩, .client)] ∧
    StreamAct.errors (((modest.takeAll Bench.Sink.frames (halves [1, 2, 3, 4])).feed Bench.Sink.frames
      bulky.toBytes).2.feedAll Bench.Sink.frames [otherHalf]).1 = [.outOfOrder 1 1 2] := by
  refine ⟨by decide +kernel, fun harmless => ?_, by decide +kernel, by decide +kernel⟩
  have hsame := harmless 1 (by decide)
  revert hsame
  decide +kernel

end PacketStream

end DevicePairing
