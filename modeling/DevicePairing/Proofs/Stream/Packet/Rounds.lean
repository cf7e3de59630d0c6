import DevicePairing.Proofs.Stream.Packet.Rejection
import Mathlib.Data.List.Infix
import Mathlib.Data.List.Induction

/-!
# The count of messages begun

Unfinished messages are stamped with the count of messages begun, so that the one with the lowest stamp is the
oldest. The count has sixty-four bits. `PacketStream.begun` is how many messages were begun in truth; the count is
that number up to whole rounds of `UInt64.size` (`PacketStream.toNat_started_takeAll`).

While the first round lasts, stamps never repeat and are never ahead of the count. Later this depends on what is
unfinished at the end of a round: a message that is carried over keeps its stamp, and the count has fallen below it.
`PacketStream.orderly_iff_not_lapped` says that nothing else can go wrong, and what follows while nothing does: one
entry is the oldest, it is the one that is dropped, and what the stream does is the same in whichever order the table
lists its entries. `PacketStream.not_orderly_lap` is a run of one round in which a message is carried over. Another
one is then begun with the stamp that this message has, and which of the two is dropped depends on the order.
-/

namespace DevicePairing

namespace Receiver

variable {s : Receiver} {p : Packet} {limit : Nat}

/-! ## What is counted -/

/-- A packet begins a message. -/
structure Begins (p : Packet) (s : Receiver) : Prop where
  /-- It is the first one of its message. -/
  first : p.number = 1
  /-- Nothing has arrived of the message before. -/
  new : s.find? p.message = none
  /-- It does not repeat the whole of the message completed last. -/
  unseen : s.lastCompleted ≠ some (p.message, p.number)

instance (p : Packet) (s : Receiver) : Decidable (s.Begins p) :=
  decidable_of_iff (p.number = 1 ∧ s.find? p.message = none ∧ s.lastCompleted ≠ some (p.message, p.number))
    ⟨fun h => ⟨h.1, h.2.1, h.2.2⟩, fun h => ⟨h.first, h.new, h.unseen⟩⟩

/-- A packet that begins a message is the one that the message waits for, and was not seen before. -/
theorem begins_iff :
    s.Begins p ↔ s.find? p.message = none ∧ ¬ s.isRepeated p ∧ p.number = s.expected p.message := by
  constructor
  · intro h
    have hexpected := expected_of_none h.new
    refine ⟨h.new, ?_, h.first.trans hexpected.symm⟩
    unfold isRepeated
    rw [hexpected]
    exact not_or.2 ⟨h.unseen, fun later => absurd later.1 (by decide)⟩
  · rintro ⟨new, unseen, next⟩
    exact ⟨next.trans (expected_of_none new), new, fun last => unseen (.inl last)⟩

/-- The count goes up by one where a message is opened of which nothing has arrived. -/
theorem started_opened (id : UInt32) (s : Receiver) :
    (s.opened id).2.started = if s.find? id = none then s.started + 1 else s.started := by
  rcases h : s.find? id with _ | u
  · rw [opened_of_none h, if_pos rfl]
  · rw [opened_of_find? h, if_neg (Option.some_ne_none u)]

/-- The count goes up by one with a packet that begins a message, whatever comes of the packet, and with no
other. -/
theorem started_accept (limit : Nat) (p : Packet) (s : Receiver) :
    (s.accept limit p).2.started = if s.Begins p then s.started + 1 else s.started := by
  have hopened (unseen : ¬ s.isRepeated p) (next : p.number = s.expected p.message) :
      (s.opened p.message).2.started = if s.Begins p then s.started + 1 else s.started := by
    rw [started_opened]
    exact if_congr ⟨fun new => begins_iff.2 ⟨new, unseen, next⟩, Begins.new⟩ rfl rfl
  have haccepted := s.accepted_accept limit p
  generalize (s.accept limit p).1 = outcome, (s.accept limit p).2 = s' at *
  cases haccepted with
  | repeated seen => rw [if_neg fun h => (begins_iff.1 h).2.1 seen]
  | stray _ other => exact (if_neg fun h => other (begins_iff.1 h).2.2).symm
  | tooLong unseen next _ => exact hopened unseen next
  | stored unseen next _ _ => exact hopened unseen next
  | completed unseen next _ _ => exact hopened unseen next

/-- Where there is room, a packet that begins a message and is too long is counted and leaves no other trace. -/
theorem accept_of_long (begins : s.Begins p) (room : s.pending.length < maxPending)
    (long : limit < p.payload.length) :
    (s.accept limit p).2 = { s with started := s.started + 1 } := by
  obtain ⟨new, unseen, next⟩ := begins_iff.1 begins
  have haccepted := s.accepted_accept limit p
  have hgathered := gathered_of_none new
  generalize (s.accept limit p).1 = outcome, (s.accept limit p).2 = s' at *
  cases haccepted with
  | repeated seen => exact absurd seen unseen
  | stray _ other => exact absurd next other
  | stored _ _ short _ | completed _ _ short _ =>
    rw [hgathered, List.nil_append] at short
    exact absurd long (Nat.not_lt.2 short)
  | tooLong _ _ _ =>
    have hforget : (s.forget p.message).pending = s.pending :=
      List.filter_eq_self.2 fun u hu => decide_eq_true (find?_eq_none_iff.1 new u hu)
    rw [opened_of_none new, makeRoom_of_lt room]
    exact congrArg (fun pending => { s with pending, started := s.started + 1 }) hforget

end Receiver

namespace PacketStream

variable {κ : Type} (sink : FrameSink κ) {s : PacketStream κ}

/-- An input begins a message: it is a packet that does. -/
def Begins (i : Input) (s : PacketStream κ) : Prop :=
  ∃ frame p outcome, i = .fed frame ∧ s.receipt frame = some (p, outcome) ∧ s.receiver.Begins p

/-- Whether an input begins a message can be told from the packet. -/
theorem begins_fed_iff {frame : Bytes} :
    s.Begins (.fed frame) ↔ ∃ r ∈ s.receipt frame, s.receiver.Begins r.1 := by
  constructor
  · rintro ⟨_, p, outcome, ⟨⟩, receipt, begins⟩
    exact ⟨_, receipt, begins⟩
  · rintro ⟨⟨p, outcome⟩, receipt, begins⟩
    exact ⟨frame, p, outcome, rfl, receipt, begins⟩

instance (i : Input) (s : PacketStream κ) : Decidable (s.Begins i) :=
  match i with
  | .asked _ | .begun => isFalse fun ⟨_, _, _, h, _⟩ => by cases h
  | .fed _ => decidable_of_iff _ begins_fed_iff.symm

/-- How many messages are begun by inputs one after another. -/
def begun : List Input → PacketStream κ → Nat
  | [], _ => 0
  | i :: is, s => (if s.Begins i then 1 else 0) + begun is (s.take sink i).2

/-! ## The count along a run -/

/-- The messages begun before and after a place add up. -/
theorem begun_append (is is' : List Input) (s : PacketStream κ) :
    s.begun sink (is ++ is') = s.begun sink is + (s.takeAll sink is).begun sink is' := by
  induction is generalizing s with
  | nil => exact (Nat.zero_add _).symm
  | cons i is ih =>
    show _ + (s.take sink i).2.begun sink (is ++ is') = _
    rw [ih, ← Nat.add_assoc]
    rfl

/-- No more messages are begun than there are inputs. -/
theorem begun_le_length (is : List Input) (s : PacketStream κ) : s.begun sink is ≤ is.length := by
  induction is generalizing s with
  | nil => exact Nat.le_refl _
  | cons i is ih =>
    have hfirst : (if s.Begins i then 1 else 0) ≤ 1 := by split <;> decide
    rw [List.length_cons, Nat.add_comm]
    exact Nat.add_le_add hfirst (ih _)

/-- The count goes up by one with an input that begins a message, and with no other. -/
theorem started_take (i : Input) (s : PacketStream κ) :
    (s.take sink i).2.receiver.started =
      if s.Begins i then s.receiver.started + 1 else s.receiver.started := by
  cases i with
  | asked r =>
    rw [if_neg (by rintro ⟨_, _, _, ⟨⟩, _⟩)]
    exact congrArg Receiver.started (served_serve sink r s).receiver
  | begun => rw [if_neg (by rintro ⟨_, _, _, ⟨⟩, _⟩)]; rfl
  | fed frame =>
    show (s.feed sink frame).2.receiver.started = _
    simp only [begins_fed_iff]
    obtain ⟨_, ⟨hnone, exchanged, hreceiver⟩ | ⟨p, receipt, hreceiver⟩⟩ := receiver_feed sink frame s
    · rw [hreceiver, hnone, if_neg (by rintro ⟨_, ⟨⟩, _⟩)]
    · rw [hreceiver, receipt, Receiver.started_accept]
      refine if_congr ⟨fun h => ⟨_, rfl, h⟩, ?_⟩ rfl rfl
      rintro ⟨_, ⟨⟩, h⟩
      exact h

/-- The count is the number of messages begun, up to whole rounds. -/
theorem toNat_started_takeAll (is : List Input) (s : PacketStream κ) :
    (s.takeAll sink is).receiver.started.toNat =
      (s.receiver.started.toNat + s.begun sink is) % UInt64.size := by
  induction is generalizing s with
  | nil => exact (Nat.mod_eq_of_lt s.receiver.started.toNat_lt_size).symm
  | cons i is ih =>
    show ((s.take sink i).2.takeAll sink is).receiver.started.toNat =
      (_ + ((if s.Begins i then 1 else 0) + (s.take sink i).2.begun sink is)) % UInt64.size
    rw [ih, started_take, ← Nat.add_assoc]
    split
    · rw [UInt64.toNat_add, Nat.mod_add_mod]
      rfl
    · rw [Nat.add_zero]

variable {sink} in
/-- Where the count starts at zero, it is the number of messages begun, up to whole rounds. -/
theorem toNat_started_of_fresh (fresh : s.receiver.started = 0) (is : List Input) :
    (s.takeAll sink is).receiver.started.toNat = s.begun sink is % UInt64.size := by
  rw [toNat_started_takeAll, fresh]
  exact congrArg (· % UInt64.size) (Nat.zero_add _)

/-! ## The end of a round -/

/-- At some moment the count had come round to zero, and an unfinished message had another stamp or was not the only
one. -/
def Lapped (is : List Input) (s : PacketStream κ) : Prop :=
  ∃ before, before <+: is ∧ 0 < s.begun sink before ∧ UInt64.size ∣ s.begun sink before ∧
    ∃ u ∈ (s.takeAll sink before).receiver.pending,
      u.stamp ≠ 0 ∨ ∃ v ∈ (s.takeAll sink before).receiver.pending, v ≠ u

variable {sink}

/-- What is not lapped was not lapped earlier. -/
theorem Lapped.of_prefix {is is' : List Input} (earlier : is <+: is') (h : s.Lapped sink is) :
    s.Lapped sink is' := by
  obtain ⟨before, hbefore, round⟩ := h
  exact ⟨before, hbefore.trans earlier, round⟩

/-- Where the count falls with an input, a round is complete. -/
theorem dvd_begun_of_falls {is : List Input} {i : Input} (fresh : s.receiver.started = 0)
    (falls : ¬ (s.takeAll sink is).receiver.started ≤
      ((s.takeAll sink is).take sink i).2.receiver.started) :
    0 < s.begun sink (is ++ [i]) ∧ UInt64.size ∣ s.begun sink (is ++ [i]) := by
  have hbegins : (s.takeAll sink is).Begins i := by
    by_contra hnot
    rw [started_take, if_neg hnot] at falls
    exact falls (UInt64.le_refl _)
  have hbegun : s.begun sink (is ++ [i]) = s.begun sink is + 1 := by
    rw [begun_append]
    exact congrArg (_ + ·) (if_pos hbegins)
  rw [started_take, if_pos hbegins, UInt64.le_iff_toNat_le, UInt64.toNat_add,
    toNat_started_of_fresh fresh] at falls
  have hone : (1 : UInt64).toNat = 1 := rfl
  have hsize : UInt64.size = 18446744073709551616 := rfl
  rw [hone, hsize] at falls
  rw [hbegun, hsize]
  omega

/-- As long as nothing is lapped, the table is orderly. -/
theorem orderly_of_not_lapped {limit : Nat} (tidy : s.Tidy limit) (orderly : s.receiver.Orderly limit)
    (fresh : s.receiver.started = 0) {is : List Input} (unlapped : ¬ s.Lapped sink is) :
    (s.takeAll sink is).receiver.Orderly limit := by
  induction is using List.reverseRecOn with
  | nil => exact orderly
  | append_singleton is i ih =>
    have hbefore := ih fun lapped => unlapped (lapped.of_prefix (List.prefix_append is [i]))
    have hnow : s.takeAll sink (is ++ [i]) = ((s.takeAll sink is).take sink i).2 := takeAll_append ..
    by_cases onward : (s.takeAll sink is).receiver.started ≤
        ((s.takeAll sink is).take sink i).2.receiver.started
    · rw [hnow]
      exact orderly_take sink (tidy.takeAll sink is).1 hbefore i onward
    · -- the count has come round, and what is unfinished now was begun with this input
      obtain ⟨hsome, hround⟩ := dvd_begun_of_falls fresh onward
      have hclear (u : Unfinished) (hu : u ∈ (s.takeAll sink (is ++ [i])).receiver.pending) :
          u.stamp = 0 ∧ ∀ v ∈ (s.takeAll sink (is ++ [i])).receiver.pending, v = u := by
        constructor
        · by_contra hstamp
          exact unlapped ⟨_, List.prefix_rfl, hsome, hround, u, hu, .inl hstamp⟩
        · intro v hv
          by_contra hother
          exact unlapped ⟨_, List.prefix_rfl, hsome, hround, u, hu, .inr ⟨v, hv, hother⟩⟩
      exact (tidy.takeAll sink (is ++ [i])).2.orderly_of_zero (fun u hu => (hclear u hu).1)
        fun u hu => (hclear u hu).2

/-- A table that is orderly when the count has come round holds nothing but what was begun then. -/
theorem not_lapped_of_orderly {limit : Nat} (fresh : s.receiver.started = 0) {is : List Input}
    (orderly : ∀ before, before <+: is → (s.takeAll sink before).receiver.Orderly limit) :
    ¬ s.Lapped sink is := by
  rintro ⟨before, hbefore, _, hround, u, hu, hlapped⟩
  have horderly := orderly before hbefore
  have hzero : (s.takeAll sink before).receiver.started = 0 := by
    rw [← UInt64.toNat_inj, toNat_started_of_fresh fresh]
    exact Nat.mod_eq_zero_of_dvd hround
  have hstamp (v : Unfinished) (hv : v ∈ (s.takeAll sink before).receiver.pending) : v.stamp = 0 :=
    UInt64.le_antisymm (hzero ▸ horderly.stamped v hv) UInt64.zero_le
  rcases hlapped with hother | ⟨v, hv, hother⟩
  · exact hother (hstamp u hu)
  · exact hother (Receiver.eq_of_stamp horderly.stamps hv hu ((hstamp v hv).trans (hstamp u hu).symm))

variable (sink)

/-- Whatever happens to a new stream, its table of unfinished messages is tidy, and its count of messages begun is
their number up to whole rounds. Stamps tell the entries apart, and none is ahead of the count, at all times exactly
if nothing is lapped: so always while fewer messages are begun than a round has. As long as nothing is lapped there
is one oldest entry whichever way the table lists them, and it is the one that is dropped. However the table is put
in another order, then and before each further input, the stream does the same on them. -/
theorem orderly_iff_not_lapped {link : κ} {c : Config} {role : OfferRole}
    (made : ofConfig link c role = .ok s) (is : List Input) :
    (s.takeAll sink is).receiver.Tidy c.maxMessageSize ∧
    (s.takeAll sink is).receiver.started.toNat = s.begun sink is % UInt64.size ∧
    ((∀ before, before <+: is → (s.takeAll sink before).receiver.Orderly c.maxMessageSize) ↔
      ¬ s.Lapped sink is) ∧
    (s.begun sink is < UInt64.size → ¬ s.Lapped sink is) ∧
    (¬ s.Lapped sink is → ∀ rs, (s.takeAll sink is).receiver.pending.Perm rs → rs ≠ [] →
      ∃ u, Receiver.IsOldest u rs ∧ (∀ v, Receiver.IsOldest v rs → v = u) ∧
        rs.Perm (u :: Receiver.dropOldest rs)) ∧
    ∀ (is' : List Input) (t : PacketStream κ) (acts : List StreamAct) (t' : PacketStream κ),
      ¬ s.Lapped sink (is ++ is') → (s.takeAll sink is).Reordered t → Runs sink t is' acts t' →
        acts = (s.takeAll sink is).doneOn sink is' ∧ t'.receiver.Orderly c.maxMessageSize ∧
          (s.takeAll sink (is ++ is')).Reordered t' := by
  have hfresh := (vacant_ofConfig made).2
  have hstarted : s.receiver.started = 0 := congrArg Receiver.started hfresh
  have hnew : s.receiver.Orderly c.maxMessageSize := hfresh ▸ Receiver.orderly_fresh _
  have htidy := tidy_ofConfig made
  have horderly {js : List Input} (unlapped : ¬ s.Lapped sink js) (before : List Input)
      (hbefore : before <+: js) : (s.takeAll sink before).receiver.Orderly c.maxMessageSize :=
    orderly_of_not_lapped htidy hnew hstarted fun lapped => unlapped (lapped.of_prefix hbefore)
  refine ⟨(htidy.takeAll sink is).2, toNat_started_of_fresh hstarted is,
    ⟨not_lapped_of_orderly hstarted, horderly⟩, ?_, ?_, ?_⟩
  · rintro few ⟨before, ⟨after, rfl⟩, hsome, hround, _⟩
    rw [begun_append] at few
    exact absurd (Nat.le_of_dvd hsome hround) (by omega)
  · intro unlapped rs perm some
    obtain ⟨u, hu, hdrop⟩ := Receiver.exists_oldest some
    have hstamps := (perm.map (·.stamp)).nodup_iff.1 (horderly unlapped is List.prefix_rfl).stamps
    exact ⟨u, hu, fun v hv => hu.unique hstamps hv, hdrop⟩
  · intro is' t acts t' unlapped reordered runs
    have hrest (before : List Input) (hbefore : before <+: is') :
        ((s.takeAll sink is).takeAll sink before).receiver.Orderly c.maxMessageSize := by
      rw [← takeAll_append]
      exact horderly unlapped _ (List.prefix_append_right_inj is |>.2 hbefore)
    obtain ⟨hacts, hlast⟩ := runs.eq_doneOn reordered (htidy.takeAll sink is) hrest
    rw [takeAll_append]
    have hlater := hrest is' List.prefix_rfl
    obtain ⟨receiver, rfl, hreceiver⟩ := hlast
    exact ⟨hacts, hreceiver.orderly hlater, receiver, rfl, hreceiver⟩

/-! ## A table that is full -/

/-- A stream as it is made for frames of forty bytes. -/
def attentive : PacketStream Bench.Sink where
  link := ⟨none⟩
  role := .initiator
  size := 40
  roomy := by decide
  limit := 65536
  sender := ⟨0, [], false⟩
  receiver := .fresh

/-- The other side's versions, and the first packets of five messages. -/
def crowd : List Input :=
  .fed VersionOffer.supported.encode ::
    [1, 2, 3, 4, 5].map fun id => .fed (Packet.toBytes ⟨id, 1, 2, []⟩)

/-- The first packet of one more message, and the second packets of two that were begun before. -/
def latecomers : List Input :=
  [.fed (Packet.toBytes ⟨6, 1, 2, []⟩), .fed (Packet.toBytes ⟨2, 2, 2, []⟩),
    .fed (Packet.toBytes ⟨3, 2, 2, []⟩)]

/-- The first of five messages is dropped, and the second one with the next: also if the table lists them
backwards. -/
theorem orderless_in_crowd :
    ofConfig (⟨none⟩ : Bench.Sink) { Config.default with maxWriteSize := 40 } .initiator = .ok attentive ∧
    (attentive.takeAll Bench.Sink.frames crowd).receiver.pending.map (fun u => (u.message, u.stamp)) =
      [(2, 2), (3, 3), (4, 4), (5, 5)] ∧
    ¬ attentive.Lapped Bench.Sink.frames (crowd ++ latecomers) ∧
    StreamAct.errors ((attentive.takeAll Bench.Sink.frames crowd).doneOn Bench.Sink.frames latecomers) =
      [.outOfOrder 2 1 2, .malformedRecord] ∧
    ∃ backwards : PacketStream Bench.Sink,
      backwards.receiver.pending = (attentive.takeAll Bench.Sink.frames crowd).receiver.pending.reverse ∧
      backwards.doneOn Bench.Sink.frames latecomers =
        (attentive.takeAll Bench.Sink.frames crowd).doneOn Bench.Sink.frames latecomers := by
  have hmade : ofConfig (⟨none⟩ : Bench.Sink) { Config.default with maxWriteSize := 40 } .initiator =
      .ok attentive := rfl
  have hfew : attentive.begun Bench.Sink.frames (crowd ++ latecomers) < UInt64.size :=
    Nat.lt_of_le_of_lt (begun_le_length ..) (by decide)
  have hunlapped : ¬ attentive.Lapped Bench.Sink.frames (crowd ++ latecomers) :=
    (orderly_iff_not_lapped Bench.Sink.frames hmade (crowd ++ latecomers)).2.2.2.1 hfew
  have horderless := (orderly_iff_not_lapped Bench.Sink.frames hmade crowd).2.2.2.2.2 latecomers
  refine ⟨hmade, by decide +kernel, hunlapped, by decide +kernel, ?_⟩
  generalize attentive.takeAll Bench.Sink.frames crowd = t at horderless
  let backwards := t.withReceiver { t.receiver with pending := t.receiver.pending.reverse }
  have hreordered : t.Reordered backwards := t.reordered_reverse
  have hruns := runs_takeAll Bench.Sink.frames latecomers backwards
  exact ⟨backwards, rfl, (horderless backwards _ _ hunlapped hreordered hruns).1⟩

/-! ## A message carried over -/

/-- A packet that begins a message and is too long may come any number of times: where there is room, each time it
is counted and leaves no other trace. -/
theorem takeAll_replicate_long {p : Packet} (exchanged : s.receiver.exchanged = true)
    (sensible : p.number ≠ 0 ∧ ¬ p.total < p.number) (begins : s.receiver.Begins p)
    (room : s.receiver.pending.length < Receiver.maxPending) (long : s.limit < p.payload.length) (n : Nat) :
    s.takeAll sink (List.replicate n (.fed p.toBytes)) =
        s.withReceiver { s.receiver with started := s.receiver.started + UInt64.ofNat n } ∧
      s.begun sink (List.replicate n (.fed p.toBytes)) = n := by
  induction n generalizing s with
  | zero =>
    have hzero : s.receiver.started + UInt64.ofNat 0 = s.receiver.started := UInt64.add_zero _
    exact ⟨by rw [hzero]; rfl, rfl⟩
  | succ n ih =>
    have hparse : Packet.parse p.toBytes = .ok p := Packet.parse_toBytes sensible.1 sensible.2
    have hbegins : s.Begins (.fed p.toBytes) :=
      ⟨_, p, _, rfl, receipt_eq_some_iff.2 ⟨exchanged, hparse, rfl⟩, begins⟩
    have htake : (s.take sink (.fed p.toBytes)).2 =
        s.withReceiver { s.receiver with started := s.receiver.started + 1 } := by
      show (s.feed sink p.toBytes).2 = _
      rw [feed_of_parse sink exchanged hparse, Receiver.accept_of_long begins room long]
      rfl
    obtain ⟨hlast, hbegun⟩ := ih (s := s.withReceiver { s.receiver with started := s.receiver.started + 1 })
      exchanged ⟨begins.first, begins.new, begins.unseen⟩ room long
    rw [List.replicate_succ]
    constructor
    · show (s.take sink (.fed p.toBytes)).2.takeAll sink _ = _
      rw [htake, hlast]
      show s.withReceiver { s.receiver with started := s.receiver.started + 1 + UInt64.ofNat n } = _
      rw [UInt64.ofNat_add, UInt64.add_comm (UInt64.ofNat n), ← UInt64.add_assoc]
      rfl
    · show (if s.Begins (.fed p.toBytes) then 1 else 0) + (s.take sink (.fed p.toBytes)).2.begun sink _ = _
      rw [if_pos hbegins, htake, hbegun, Nat.add_comm]

/-- A message is begun, and then another one that is too long, over and over, until the count comes round. -/
def lap : List Input := halves [1] ++ List.replicate (UInt64.size - 1) (.fed bulky.toBytes)

/-- The stream when the count has come round: it has forgotten that a message was begun. -/
def rounded : PacketStream Bench.Sink :=
  (modest.takeAll Bench.Sink.frames (halves [1])).withReceiver
    { (modest.takeAll Bench.Sink.frames (halves [1])).receiver with started := 0 }

/-- A whole round of messages is begun, and the first one is still unfinished. -/
theorem takeAll_lap :
    modest.takeAll Bench.Sink.frames lap = rounded ∧ modest.begun Bench.Sink.frames lap = UInt64.size := by
  obtain ⟨hlast, hbegun⟩ := takeAll_replicate_long Bench.Sink.frames (p := bulky)
    (s := modest.takeAll Bench.Sink.frames (halves [1])) (by decide +kernel) (by decide) (by decide +kernel)
    (by decide +kernel) (by decide +kernel) (UInt64.size - 1)
  have hstarted : (modest.takeAll Bench.Sink.frames (halves [1])).receiver.started +
      UInt64.ofNat (UInt64.size - 1) = 0 := by decide +kernel
  have hfirst : modest.begun Bench.Sink.frames (halves [1]) = 1 := by decide +kernel
  constructor
  · rw [lap, takeAll_append, hlast, hstarted]
    rfl
  · rw [lap, begun_append, hbegun, hfirst]
    rfl

/-- The first halves of three more messages. -/
def followers : List Input := (halves [2, 3, 4]).tail

/-- The first half of one more message, for which there is no room, and the other half of the first one. -/
def closing : List Input := (halves [6]).tail ++ [.fed otherHalf]

/-- When a round of messages has been begun, the one that is unfinished is stamped ahead of the count. The next
message gets the stamp that it has. When one of the two is dropped, that is the first one or the second one,
depending on how the table lists them: the first message is given up, or it is delivered. -/
theorem not_orderly_lap :
    ofConfig (⟨none⟩ : Bench.Sink) { Config.default with maxWriteSize := 100, maxMessageSize := 80 }
      .initiator = .ok modest ∧
    modest.begun Bench.Sink.frames lap = UInt64.size ∧
    ¬ (modest.takeAll Bench.Sink.frames lap).receiver.Orderly 80 ∧
    (modest.takeAll Bench.Sink.frames (lap ++ followers)).receiver.pending.map
      (fun u => (u.message, u.stamp)) = [(1, 1), (2, 1), (3, 2), (4, 3)] ∧
    ∃ acts t acts' t',
      Runs Bench.Sink.frames (modest.takeAll Bench.Sink.frames (lap ++ followers)) closing acts t ∧
      Runs Bench.Sink.frames (modest.takeAll Bench.Sink.frames (lap ++ followers)) closing acts' t' ∧
      StreamAct.messages acts = [] ∧ StreamAct.errors acts = [.outOfOrder 1 1 2] ∧
      StreamAct.messages acts' = [(⟨none, false, []⟩, .client)] := by
  obtain ⟨hlap, hbegun⟩ := takeAll_lap
  refine ⟨rfl, hbegun, fun orderly => ?_, ?_, ?_⟩
  · rw [hlap] at orderly
    have hahead : ¬ ∀ u ∈ rounded.receiver.pending, u.stamp ≤ rounded.receiver.started := by decide +kernel
    exact hahead orderly.stamped
  · rw [takeAll_append, hlap]
    decide +kernel
  · rw [takeAll_append, hlap]
    let t := rounded.takeAll Bench.Sink.frames followers
    refine ⟨_, _, _, _, runs_takeAll Bench.Sink.frames closing t,
      .taken t.reordered_reverse (runs_takeAll Bench.Sink.frames closing.tail _), ?_, ?_, ?_⟩
    · decide +kernel
    · decide +kernel
    · decide +kernel

end PacketStream

end DevicePairing
