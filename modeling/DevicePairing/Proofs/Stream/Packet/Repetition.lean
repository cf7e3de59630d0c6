import DevicePairing.Proofs.Stream.Packet.Table

/-!
# Packets taken for a repetition

A packet is passed over if its message and its number are those of the packet that completed a message last.
But the number of a message comes again, after numbers have wrapped or because the other side uses it again. So
the very packet that a message waits for may be passed over: this happens if the message completed last had the
same number, and as many packets as the message at hand has with this one.
`PacketStream.joined_iff_not_finished_last` says that it happens in no other case. The packet that a message
waits for is then either added to it or refused because the message becomes too long.

A message whose packet was passed over waits in vain: no message with its number is completed by as many packets
before some other message is completed (`Receiver.Blocked`).

What the receiving side remembers of the message completed last is tied to what happened by
`PacketStream.finished`, the list of all messages completed in a run.
-/

namespace DevicePairing

namespace Receiver

variable {id k : UInt32} {s : Receiver} {p : Packet} {u : Unfinished} {limit : Nat}

/-! ## The message completed last -/

/-- The message that a packet completes, with how many packets it has. -/
def finishing (p : Packet) : Except StreamError Progress → Option (UInt32 × UInt32)
  | .ok (.complete _) => some (p.message, p.total)
  | _ => none

/-- The message completed last is the one that a packet completes, or the former one if it completes none. -/
theorem lastCompleted_accept (limit : Nat) (p : Packet) (s : Receiver) :
    (s.accept limit p).2.lastCompleted =
      (finishing p (s.accept limit p).1).or s.lastCompleted := by
  have haccepted := s.accepted_accept limit p
  generalize (s.accept limit p).1 = outcome, (s.accept limit p).2 = s' at *
  cases haccepted with
  | repeated _ | stray _ _ => rfl
  | tooLong _ _ _ | stored _ _ _ _ => exact lastCompleted_opened p.message s
  | completed _ _ _ last =>
    show some (p.message, p.number) = _
    rw [last]
    rfl

/-! ## The packet that a message waits for -/

/-- The packet that a message waits for was added to what had arrived of it, or refused because the message
becomes too long. -/
inductive Joined (limit : Nat) (p : Packet) (u : Unfinished) (s' : Receiver) :
    Except StreamError Progress → Prop where
  /-- Others are to follow it. -/
  | stored (short : (u.data ++ p.payload).length ≤ limit) (more : p.number ≠ p.total)
    (found : s'.find? p.message = some { u with next := p.number + 1, data := u.data ++ p.payload }) :
    Joined limit p u s' (.ok .stored)
  /-- It is the last one. -/
  | completed (short : (u.data ++ p.payload).length ≤ limit) (last : p.number = p.total)
    (gone : s'.find? p.message = none) :
    Joined limit p u s' (.ok (.complete (u.data ++ p.payload)))
  /-- It makes its message too long. -/
  | tooLong (long : limit < (u.data ++ p.payload).length) (gone : s'.find? p.message = none) :
    Joined limit p u s' (.error (.messageTooLarge (u.data ++ p.payload).length limit))

/-- The packet that a message waits for does not repeat the one before it. -/
theorem isRepeated_iff_of_next (next : p.number = s.expected p.message) :
    s.isRepeated p ↔ s.lastCompleted = some (p.message, p.number) := by
  refine or_iff_left fun ⟨_, before⟩ => ?_
  rw [← next] at before
  grind

/-- The packet that a message waits for is passed over if it is numbered like the last one of the message
completed last. If not, it joins its message. -/
theorem accept_next (limit : Nat) (found : s.find? p.message = some u) (next : p.number = u.next) :
    (s.lastCompleted = some (p.message, p.number) ∧ s.accept limit p = (.ok .duplicate, s)) ∨
      (s.lastCompleted ≠ some (p.message, p.number) ∧
        Joined limit p u (s.accept limit p).2 (s.accept limit p).1) := by
  have hexpected : p.number = s.expected p.message := next.trans (expected_of_find? found).symm
  by_cases last : s.lastCompleted = some (p.message, p.number)
  · exact .inl ⟨last, if_pos ((isRepeated_iff_of_next hexpected).2 last)⟩
  refine .inr ⟨last, ?_⟩
  have haccepted := s.accepted_accept limit p
  generalize (s.accept limit p).1 = outcome, (s.accept limit p).2 = s' at *
  have hextended : s.extended p = { u with next := p.number + 1, data := u.data ++ p.payload } := by
    unfold extended
    rw [gathered_of_find? found, opened_of_find? found]
  cases haccepted with
  | repeated seen => exact absurd ((isRepeated_iff_of_next hexpected).1 seen) last
  | stray _ other => exact absurd hexpected other
  | tooLong _ _ long =>
    rw [gathered_of_find? found] at long ⊢
    refine .tooLong long ?_
    rw [find?_forget, if_pos rfl]
  | stored _ _ short more =>
    rw [gathered_of_find? found] at short
    refine .stored short more ?_
    rw [find?_put, message_extended, if_pos rfl, hextended]
  | completed _ _ short final =>
    rw [gathered_of_find? found] at short ⊢
    refine .completed short final ?_
    show ((s.opened p.message).2.forget p.message).find? p.message = none
    rw [find?_forget, if_pos rfl]

/-! ## Waiting in vain -/

/-- A message cannot get beyond a packet, since the message completed last ended with a packet of the same
number. -/
structure Blocked (id k : UInt32) (s : Receiver) : Prop where
  /-- Packets are numbered from one. -/
  positive : 1 ≤ k
  /-- The message completed last ended with this packet. -/
  last : s.lastCompleted = some (id, k)
  /-- The message waits for this packet or an earlier one. -/
  waits : ∀ u ∈ s.pending, u.message = id → u.next ≤ k

/-- A message waits for a packet, and the message completed last had its number and ended with that packet. -/
theorem Tidy.blocked (h : s.Tidy limit) (found : s.find? id = some u)
    (last : s.lastCompleted = some (id, u.next)) : s.Blocked id u.next := by
  obtain ⟨hu, hid⟩ := mem_of_find? found
  refine ⟨?_, last, fun v hv own => ?_⟩
  · have hbegun := h.begun u hu
    rw [UInt32.le_iff_toNat_le] at hbegun ⊢
    exact Nat.le_of_succ_le hbegun
  · rw [List.inj_on_of_nodup_map h.messages hv hu (own.trans hid.symm)]
    exact UInt32.le_refl u.next

/-- The packet that comes next is numbered lower than the one the message cannot get beyond. -/
theorem Blocked.number_lt (h : s.Blocked id k) (unseen : ¬ s.isRepeated p)
    (next : p.number = s.expected p.message) (own : p.message = id) : p.number < k := by
  have hle : p.number ≤ k := by
    rw [next]
    rcases hfind : s.find? p.message with _ | u
    · rw [expected_of_none hfind]
      exact h.positive
    · rw [expected_of_find? hfind]
      obtain ⟨hu, hmessage⟩ := mem_of_find? hfind
      exact h.waits u hu (hmessage.trans own)
  have hne : p.number ≠ k := by
    rintro rfl
    exact unseen (.inl (own ▸ h.last))
  exact UInt32.lt_of_le_of_ne hle hne

/-- A message stays blocked with every packet, until another message is completed, or one with its number by
fewer packets. -/
theorem Blocked.accept (h : s.Blocked id k) (limit : Nat) (p : Packet) :
    (∀ m, finishing p (s.accept limit p).1 = some m → m.1 ≠ id ∨ m.2 < k) ∧
      (finishing p (s.accept limit p).1 = none → (s.accept limit p).2.Blocked id k) := by
  have haccepted := s.accepted_accept limit p
  generalize (s.accept limit p).1 = outcome, (s.accept limit p).2 = s' at *
  have hopened := (pending_opened_sublist p.message s).subset
  cases haccepted with
  | repeated _ => exact ⟨nofun, fun _ => h⟩
  | stray _ _ =>
    exact ⟨nofun, fun _ => ⟨h.positive, h.last, fun u hu => h.waits u (mem_forget_iff.1 hu).1⟩⟩
  | tooLong _ _ _ =>
    refine ⟨nofun, fun _ => ⟨h.positive, (lastCompleted_opened p.message s).trans h.last, ?_⟩⟩
    exact fun u hu => h.waits u (hopened (mem_forget_iff.1 hu).1)
  | stored unseen next _ _ =>
    refine ⟨nofun, fun _ => ⟨h.positive, (lastCompleted_opened p.message s).trans h.last, ?_⟩⟩
    intro u hu own
    rcases mem_put_iff.1 hu with ⟨hu, _⟩ | rfl
    · exact h.waits u (hopened hu) own
    · rw [message_extended] at own
      -- the packet that comes next is below the one that blocks, so what is waited for then is not above it
      have hlt := h.number_lt unseen next own
      show p.number + 1 ≤ k
      rw [UInt32.lt_iff_toNat_lt] at hlt
      have hbound := k.toNat_lt
      rw [UInt32.le_iff_toNat_le, UInt32.toNat_add, show (1 : UInt32).toNat = 1 from rfl,
        Nat.mod_eq_of_lt (by omega)]
      exact hlt
  | completed unseen next _ last =>
    refine ⟨?_, nofun⟩
    rintro m ⟨⟩
    by_cases own : p.message = id
    · exact .inr (last ▸ h.number_lt unseen next own)
    · exact .inl own

end Receiver

namespace PacketStream

variable {κ : Type} (sink : FrameSink κ) {s : PacketStream κ}

/-! ## Messages completed in a run -/

/-- The message that is completed on an input, with how many packets it has. -/
def finishedOn : Input → PacketStream κ → Option (UInt32 × UInt32)
  | .fed frame, s => (s.receipt frame).bind fun r => Receiver.finishing r.1 r.2
  | _, _ => none

/-- A frame completes what the packet in it completes. -/
theorem finishedOn_fed (frame : Bytes) (s : PacketStream κ) :
    s.finishedOn (.fed frame) = (s.receipt frame).bind fun r => Receiver.finishing r.1 r.2 := rfl

/-- The messages that are completed on inputs, in order, each with how many packets it has. -/
def finished : List Input → PacketStream κ → List (UInt32 × UInt32)
  | [], _ => []
  | i :: is, s => (s.finishedOn i).toList ++ finished is (s.take sink i).2

/-- On an input a packet is taken in, or else no message is completed and at most versions are exchanged. -/
theorem receiver_take (i : Input) (s : PacketStream κ) :
    (s.finishedOn i = none ∧
        ∃ exchanged, (s.take sink i).2.receiver = { s.receiver with exchanged }) ∨
      ∃ p, s.receiver.exchanged = true ∧
        s.finishedOn i = Receiver.finishing p (s.receiver.accept s.limit p).1 ∧
        (s.take sink i).2.receiver = (s.receiver.accept s.limit p).2 := by
  cases i with
  | asked r => exact .inl ⟨rfl, s.receiver.exchanged, (served_serve sink r s).receiver⟩
  | begun => exact .inl ⟨rfl, s.receiver.exchanged, rfl⟩
  | fed frame =>
    rcases (receiver_feed sink frame s).2 with ⟨hreceipt, hreceiver⟩ | ⟨p, hreceipt, hreceiver⟩
    · refine .inl ⟨?_, hreceiver⟩
      rw [finishedOn_fed, hreceipt, Option.bind_none]
    · refine .inr ⟨p, (receipt_eq_some_iff.1 hreceipt).1, ?_, hreceiver⟩
      rw [finishedOn_fed, hreceipt, Option.bind_some]

/-- What is remembered of the message completed last is right. -/
theorem lastCompleted_takeAll (is : List Input) (s : PacketStream κ) :
    (s.takeAll sink is).receiver.lastCompleted =
      (s.finished sink is).getLast?.or s.receiver.lastCompleted := by
  induction is generalizing s with
  | nil => rfl
  | cons i is ih =>
    have htake : (s.take sink i).2.receiver.lastCompleted =
        (s.finishedOn i).or s.receiver.lastCompleted := by
      rcases receiver_take sink i s with ⟨hnone, exchanged, hreceiver⟩ | ⟨p, _, hfinished, hreceiver⟩
      · rw [hreceiver, hnone]
        rfl
      · rw [hreceiver, hfinished]
        exact Receiver.lastCompleted_accept s.limit p s.receiver
    rw [takeAll, ih, htake, finished, List.getLast?_append, Option.or_assoc]
    cases s.finishedOn i <;> rfl

/-- As long as versions have not been exchanged, nothing is in the table. -/
theorem exchanged_takeAll (is : List Input)
    (settled : s.receiver.exchanged = true ∨ s.receiver.pending = []) :
    (s.takeAll sink is).receiver.exchanged = true ∨ (s.takeAll sink is).receiver.pending = [] := by
  induction is generalizing s with
  | nil => exact settled
  | cons i is ih =>
    refine ih ?_
    rcases receiver_take sink i s with ⟨_, exchanged, hreceiver⟩ | ⟨_, exchanged, _⟩
    · refine settled.imp (exchanged_take sink i) fun empty => ?_
      rw [hreceiver]
      exact empty
    · exact .inl (exchanged_take sink i exchanged)

/-- Until another message is completed, a message that is blocked is not completed by as many packets. -/
theorem finished_of_blocked {id k : UInt32} (blocked : s.receiver.Blocked id k) {is : List Input}
    {m : UInt32 × UInt32} {rest : List (UInt32 × UInt32)} (finished : s.finished sink is = m :: rest) :
    m.1 ≠ id ∨ m.2 < k := by
  induction is generalizing s with
  | nil => cases finished
  | cons i is ih =>
    rw [PacketStream.finished] at finished
    rcases receiver_take sink i s with ⟨hnone, exchanged, hreceiver⟩ | ⟨p, _, hfinished, hreceiver⟩
    · rw [hnone] at finished
      refine ih ?_ finished
      rw [hreceiver]
      exact ⟨blocked.positive, blocked.last, blocked.waits⟩
    · obtain ⟨hsome, hnone⟩ := blocked.accept s.limit p
      rw [← hfinished] at hsome hnone
      rcases hon : s.finishedOn i with _ | m'
      · rw [hon] at finished
        exact ih (hreceiver ▸ hnone hon) finished
      · rw [hon] at finished
        obtain ⟨rfl, _⟩ := List.cons.inj finished
        exact hsome _ hon

/-- Whatever has happened to a new stream: the packet that an unfinished message waits for is added to it, or
refused because the message becomes too long, unless the message completed last had the same number and as many
packets as the message has with this one. In that case nothing comes of the packet, and no message with its
number is completed by as many packets before some other message is. -/
theorem joined_iff_not_finished_last {link : κ} {c : Config} {role : OfferRole}
    (made : ofConfig link c role = .ok s) (is : List Input) {frame : Bytes} {p : Packet} {u : Unfinished}
    (parse : Packet.parse frame = .ok p)
    (found : (s.takeAll sink is).receiver.find? p.message = some u) (next : p.number = u.next) :
    ((∃ outcome, (s.takeAll sink is).receipt frame = some (p, outcome) ∧
        Receiver.Joined c.maxMessageSize p u
          ((s.takeAll sink is).feed sink frame).2.receiver outcome) ↔
      (s.finished sink is).getLast? ≠ some (p.message, p.number)) ∧
    ((s.finished sink is).getLast? = some (p.message, p.number) →
      (s.takeAll sink is).receipt frame = some (p, .ok .duplicate) ∧
      (s.takeAll sink is).feed sink frame = ([], s.takeAll sink is) ∧
      ∀ is' m rest, (s.takeAll sink is).finished sink is' = m :: rest →
        m.1 ≠ p.message ∨ m.2 < p.number) := by
  have htidy := (tidy_ofConfig made).takeAll sink is
  have hfresh := (vacant_ofConfig made).2
  have hlast : (s.takeAll sink is).receiver.lastCompleted = (s.finished sink is).getLast? := by
    rw [lastCompleted_takeAll, hfresh]
    exact Option.or_none
  have exchanged : (s.takeAll sink is).receiver.exchanged = true := by
    refine (exchanged_takeAll sink is (.inr (congrArg Receiver.pending hfresh))).resolve_right ?_
    exact List.ne_nil_of_mem (Receiver.mem_of_find? found).1
  rw [← hlast]
  generalize s.takeAll sink is = t at *
  rw [receipt_eq_some_iff.2 ⟨exchanged, parse, rfl⟩, feed_of_parse sink exchanged parse, ← htidy.1]
  rcases Receiver.accept_next t.limit found next with ⟨last, haccept⟩ | ⟨other, joined⟩
  · rw [haccept]
    refine ⟨⟨?_, fun other => absurd last other⟩, fun _ => ⟨rfl, rfl, ?_⟩⟩
    · rintro ⟨_, ⟨⟩, ⟨⟩⟩
    · intro is' m rest finished
      rw [next] at last ⊢
      exact finished_of_blocked sink (htidy.2.blocked found last) finished
  · exact ⟨⟨fun _ => other, fun _ => ⟨_, rfl, joined⟩⟩, fun last => absurd last other⟩

/-! ## A number used again -/

/-- A stream as it is made for frames of fifty bytes. -/
def trusting : PacketStream Bench.Sink where
  link := ⟨none⟩
  role := .initiator
  size := 50
  roomy := by decide
  limit := 65536
  sender := ⟨0, [], false⟩
  receiver := .fresh

/-- Versions are exchanged, and a message with the number 9 is completed by two packets. -/
def former : List Input :=
  [.fed VersionOffer.supported.encode, .fed (Packet.toBytes ⟨9, 1, 2, [1]⟩),
    .fed (Packet.toBytes ⟨9, 2, 2, [2]⟩)]

/-- A message of one packet. -/
def interlude : Input := .fed (Packet.toBytes ⟨8, 1, 1, [3]⟩)

/-- The first packet of a message of three, with the number 9 again. -/
def latter : Input := .fed (Packet.toBytes ⟨9, 1, 3, [4]⟩)

/-- Its second packet. -/
def second : Packet := ⟨9, 2, 3, [5]⟩

/-- If another message is completed in between, the second packet is added. -/
theorem joined_after_interlude :
    ofConfig (⟨none⟩ : Bench.Sink) { Config.default with maxWriteSize := 50 } .initiator = .ok trusting ∧
    trusting.finished Bench.Sink.frames (former ++ [interlude, latter]) = [(9, 2), (8, 1)] ∧
    (trusting.takeAll Bench.Sink.frames (former ++ [interlude, latter])).receiver.find? 9 =
      some ⟨9, 2, [4], 3⟩ ∧
    ∃ outcome, (trusting.takeAll Bench.Sink.frames (former ++ [interlude, latter])).receipt
        second.toBytes = some (second, outcome) ∧
      Receiver.Joined 65536 second ⟨9, 2, [4], 3⟩
        ((trusting.takeAll Bench.Sink.frames (former ++ [interlude, latter])).feed Bench.Sink.frames
          second.toBytes).2.receiver outcome := by
  have hmade : ofConfig (⟨none⟩ : Bench.Sink) { Config.default with maxWriteSize := 50 } .initiator =
      .ok trusting := rfl
  have hfinished : trusting.finished Bench.Sink.frames (former ++ [interlude, latter]) =
      [(9, 2), (8, 1)] := by decide +kernel
  have hfound : (trusting.takeAll Bench.Sink.frames (former ++ [interlude, latter])).receiver.find?
      second.message = some ⟨9, 2, [4], 3⟩ := by decide +kernel
  have hjoined := joined_iff_not_finished_last Bench.Sink.frames hmade (former ++ [interlude, latter])
    (Packet.parse_toBytes (p := second) (by decide) (by decide)) hfound rfl
  refine ⟨hmade, hfinished, hfound, hjoined.1.2 ?_⟩
  rw [hfinished]
  decide

/-- If not, the second packet is passed over, and the third one is out of order. -/
theorem not_joined_after_same_number :
    (trusting.takeAll Bench.Sink.frames (former ++ [latter])).receiver.find? 9 = some ⟨9, 2, [4], 2⟩ ∧
    ¬ (∃ outcome, (trusting.takeAll Bench.Sink.frames (former ++ [latter])).receipt second.toBytes =
        some (second, outcome) ∧
      Receiver.Joined 65536 second ⟨9, 2, [4], 2⟩
        ((trusting.takeAll Bench.Sink.frames (former ++ [latter])).feed Bench.Sink.frames
          second.toBytes).2.receiver outcome) ∧
    StreamAct.errors ((trusting.takeAll Bench.Sink.frames (former ++ [latter])).feedAll Bench.Sink.frames
      [second.toBytes, Packet.toBytes ⟨9, 3, 3, [6]⟩]).1 = [.outOfOrder 9 2 3] := by
  have hreceipt : (trusting.takeAll Bench.Sink.frames (former ++ [latter])).receipt second.toBytes =
      some (second, .ok .duplicate) := by decide +kernel
  refine ⟨by decide +kernel, ?_, by decide +kernel⟩
  rintro ⟨outcome, houtcome, joined⟩
  rw [hreceipt] at houtcome
  cases houtcome
  cases joined

end PacketStream

end DevicePairing
