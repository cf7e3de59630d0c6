import DevicePairing.Bench
import DevicePairing.Proofs.Cbor.Envelope
import DevicePairing.Proofs.Stream.Packet.Assembly
import DevicePairing.Proofs.Stream.Packet.Sending
import DevicePairing.Proofs.Stream.Takes

/-!
# Packet streams deliver

Whatever is written to a packet stream over a link that accepts every frame arrives at a stream that is
fed these frames: the same messages, for the same operations, in the same order, and nothing else
(`PacketStream.delivers`). When messages are written, when the link says that packets are through, how
often the size of frames changes, and where message numbers start, does not matter.

The proof has two halves that meet in a list of packets. On the sending side `PacketStream.Batched` says
that the packets queued over a run are those of the messages taken, under consecutive numbers, and
conservation says that they are what the link gets. On the receiving side each batch completes its
message, and since consecutive numbers differ, also where they wrap, it leaves the stream ready for the
next one.
-/

namespace DevicePairing.PacketStream

variable {κ κ' : Type} {sink : FrameSink κ} {good : κ → Prop} {s s' : PacketStream κ}

/-! ## The sending side -/

/-- The message of a request, if it was a message and the write was answered with success. -/
def Request.taken : Request → Report → List (DeviceMessage × Operation)
  | .write m op, ⟨.ok _, _⟩ => [(m, op)]
  | _, _ => []

/-- The messages taken over a run, in order. -/
def taken (rs : List Request) (reports : List Report) : List (DeviceMessage × Operation) :=
  (List.zipWith Request.taken rs reports).flatten

/-- The messages taken with the first request come first. -/
theorem taken_cons (r : Request) (rs : List Request) (report : Report) (reports : List Report) :
    taken (r :: rs) (report :: reports) = r.taken report ++ taken rs reports := rfl

/-- The packets of messages within a limit, under consecutive numbers from a given one on. -/
inductive Batched (limit : Nat) :
    UInt32 → List (DeviceMessage × Operation) → List Packet → Prop where
  /-- There are no messages. -/
  | nil {id : UInt32} : Batched limit id [] []
  /-- The packets of a message come before those of the others. -/
  | cons {id : UInt32} {m : DeviceMessage} {op : Operation} {size : Nat} {packets rest : List Packet}
    {ms : List (DeviceMessage × Operation)} (fits : (Envelope.encode m op).length ≤ limit)
    (split : Packet.split (Envelope.encode m op) id size = .ok packets)
    (more : Batched limit (id + 1) ms rest) : Batched limit id ((m, op) :: ms) (packets ++ rest)

/-- A link that accepts everything is no reason for an attempt to fail. -/
theorem Sent.of_accepts {answer : Except StreamError Unit} {acts : List StreamAct}
    (h : Sent sink s answer acts s') (accepts : sink.Accepts good) (link : good s.link) :
    answer = .ok () ∧ (∀ o ∈ StreamAct.offers acts, o.2 = .ok ()) ∧ good s'.link := by
  have hoffered : ∀ {frame answer link'}, sink.send frame s.link = (answer, link') →
      answer = .ok () ∧ good link' := by
    intro frame answer link' hsend
    obtain ⟨link'', haccept, hgood⟩ := accepts frame s.link link
    rw [haccept] at hsend
    cases hsend
    exact ⟨rfl, hgood⟩
  cases h with
  | nothing _ => exact ⟨rfl, List.forall_mem_nil _, link⟩
  | accepted _ _ answer =>
    refine ⟨rfl, fun o ho => ?_, (hoffered answer).2⟩
    rw [List.mem_singleton.1 ho]
  | refused _ _ answer => cases (hoffered answer).1

/-- A link that accepts every frame accepts all that comes of a request, and goes on accepting. -/
theorem Served.of_accepts {r : Request} {packets : List Packet} {report : Report}
    (h : Served sink s r packets report s') (accepts : sink.Accepts good) (link : good s.link) :
    (∀ o ∈ StreamAct.offers report.acts, o.2 = .ok ()) ∧ good s'.link := by
  cases h with
  | written _ _ sent => exact (sent.of_accepts accepts link).2
  | through sent =>
    rw [StreamAct.offers_append, offers_complaint, List.append_nil]
    exact (sent.of_accepts accepts link).2
  | tooLong _ | unsplit _ _ | resized _ | cramped _ => exact ⟨List.forall_mem_nil _, link⟩

/-- A message within a limit that can be counted is cut into packets. -/
theorem split_ne_error {m : DeviceMessage} {op : Operation} {e : StreamError}
    (fits : (Envelope.encode m op).length ≤ s.limit) (countable : s.limit < Packet.maxTotal) :
    Packet.split (Envelope.encode m op) s.sender.nextMessage s.size ≠ .error e := by
  obtain ⟨packets, hsplit⟩ := Packet.split_of_le s.sender.nextMessage s.roomy
    (Nat.le_trans fits (Nat.le_of_lt countable))
  rw [hsplit]
  exact fun h => nomatch h

/-- The packets that join the queue with a request are those of the message taken, if one is taken. -/
theorem Served.batched {r : Request} {packets rest : List Packet} {report : Report}
    {ms : List (DeviceMessage × Operation)} (h : Served sink s r packets report s')
    (accepts : sink.Accepts good) (link : good s.link) (countable : s.limit < Packet.maxTotal)
    (more : Batched s.limit s'.sender.nextMessage ms rest) :
    Batched s.limit s.sender.nextMessage (r.taken report ++ ms) (packets ++ rest) := by
  cases h with
  | unsplit fits split => exact absurd split (split_ne_error fits countable)
  | written fits split sent =>
    obtain ⟨rfl, _⟩ := sent.of_accepts accepts link
    rw [sent.nextMessage] at more
    exact .cons fits split more
  | through sent =>
    rw [sent.nextMessage] at more
    exact more
  | tooLong _ | resized _ | cramped _ => exact more

/-- Over a run the packets of the messages taken join the queue, message by message and under consecutive
numbers, and the link accepts all that it is handed. -/
theorem batched_run (accepts : sink.Accepts good) (rs : List Request) (s : PacketStream κ)
    (link : good s.link) (countable : s.limit < Packet.maxTotal) :
    Batched s.limit s.sender.nextMessage (taken rs (s.run sink rs).1) (s.queued sink rs).flatten ∧
      (∀ o ∈ StreamAct.offers (Report.actsOf (s.run sink rs).1), o.2 = .ok ()) ∧
      good (s.run sink rs).2.link ∧ (s.run sink rs).2.limit = s.limit := by
  induction rs generalizing s with
  | nil => exact ⟨.nil, List.forall_mem_nil _, link, rfl⟩
  | cons r rs ih =>
    have hserved := served_serve sink r s
    obtain ⟨hoffers, hlink⟩ := hserved.of_accepts accepts link
    have hlimit := hserved.limit
    obtain ⟨hmore, hrest, hlast, hlimit'⟩ := ih _ hlink (by rwa [hlimit])
    rw [hlimit] at hmore
    rw [run_cons, taken_cons, queued, List.flatten_cons, Report.actsOf_cons,
      StreamAct.offers_append]
    exact ⟨hserved.batched accepts link countable hmore,
      fun o ho => (List.mem_append.1 ho).elim (hoffers o) (hrest o), hlast, hlimit'.trans hlimit⟩

/-- Over a link that accepts every frame, a message is taken exactly if its envelope is within the
limit. -/
theorem answer_write_iff (accepts : sink.Accepts good) (link : good s.link)
    (countable : s.limit < Packet.maxTotal) (m : DeviceMessage) (op : Operation) :
    (s.serve sink (.write m op)).1.answer = .ok () ↔ (Envelope.encode m op).length ≤ s.limit := by
  have hserved := served_serve sink (.write m op) s
  generalize s.joins (.write m op) = packets, (s.serve sink (.write m op)).1 = report,
    (s.serve sink (.write m op)).2 = s' at hserved
  cases hserved with
  | tooLong long => exact ⟨fun h => (nomatch h), fun h => absurd h (Nat.not_le.2 long)⟩
  | unsplit fits split => exact absurd split (split_ne_error fits countable)
  | written fits _ sent =>
    obtain ⟨rfl, _⟩ := sent.of_accepts accepts link
    exact ⟨fun _ => fits, fun _ => rfl⟩

/-- Each completion lets a packet out, so the queue empties. -/
theorem exists_completed_run (accepts : sink.Accepts good) (s : PacketStream κ)
    (link : good s.link) :
    ∃ n, (s.run sink (List.replicate n .completed)).2.sender.queue = [] := by
  induction hqueue : s.sender.queue generalizing s with
  | nil => exact ⟨0, hqueue⟩
  | cons p queue ih =>
    have hserved := served_serve sink .completed s
    have hlink := (hserved.of_accepts accepts link).2
    have hnext : (s.serve sink .completed).2.sender.queue = queue := by
      generalize s.joins .completed = packets, (s.serve sink .completed).1 = report,
        (s.serve sink .completed).2 = s' at hserved
      cases hserved with
      | through sent =>
        cases sent with
        | nothing idle =>
          have hnil : s.sender.queue = [] := idle.resolve_left fun h => nomatch h
          rw [hqueue] at hnil
          cases hnil
        | accepted _ next _ | refused _ next _ =>
          exact (List.cons.inj (next.symm.trans hqueue)).2
    obtain ⟨n, hn⟩ := ih _ hlink hnext
    exact ⟨n + 1, hn⟩

/-! ## The receiving side -/

/-- Batches arrive as the messages they were made of. -/
theorem feedAll_batched (sink : FrameSink κ') {limit : Nat} {id : UInt32}
    {ms : List (DeviceMessage × Operation)} {packets : List Packet}
    (h : Batched limit id ms packets) :
    ∀ {r : PacketStream κ'}, r.receiver.ReadyFor id → limit ≤ r.limit → limit < Packet.maxTotal →
      (r.feedAll sink (packets.map Packet.toBytes)).1 = ms.map fun m => .delivered m.1 m.2 := by
  induction h with
  | nil => exact fun _ _ _ => rfl
  | @cons id m op size packets rest ms fits split _ ih =>
    intro r ready room countable
    obtain ⟨r', hfeed, hlimit, hready⟩ :=
      feedAll_message sink split ready (Nat.le_trans fits room)
    have hword : (Envelope.encode m op).length < capacity 8 :=
      Nat.lt_of_le_of_lt fits (Nat.lt_trans countable (by decide))
    have hnext : id + 1 ≠ id := by grind
    rw [List.map_append, feedAll_append, hfeed, ih (hready _ hnext) (by rwa [hlimit]) countable,
      StreamAct.ofEnvelope_encode hword]
    rfl

/-! ## Both sides -/

/-- Over a link that accepts every frame, every run can be brought to an end at which nothing waits any
more, and then the frames, fed to a stream that has only exchanged versions, tell its listener of exactly
the messages taken, in order. A message is taken exactly if its envelope is within the limit. -/
theorem delivers (accepts : sink.Accepts good) (link : good s.link) (idle : s.sender.queue = [])
    (countable : s.limit < Packet.maxTotal) (sink' : FrameSink κ') {r : PacketStream κ'}
    (fresh : r.receiver = { Receiver.fresh with exchanged := true }) (room : s.limit ≤ r.limit)
    (rs : List Request) :
    (∃ n, (s.run sink (rs ++ List.replicate n .completed)).2.sender.queue = []) ∧
    ((s.run sink rs).2.sender.queue = [] →
      (r.feedAll sink' (StreamAct.accepted (Report.actsOf (s.run sink rs).1))).1 =
        (taken rs (s.run sink rs).1).map fun m => .delivered m.1 m.2) ∧
    ∀ m op, ((s.run sink rs).2.serve sink (.write m op)).1.answer = .ok () ↔
      (Envelope.encode m op).length ≤ s.limit := by
  obtain ⟨hbatched, hoffers, hlink, hlimit⟩ := batched_run accepts rs s link countable
  refine ⟨?_, fun hempty => ?_, fun m op => ?_⟩
  · obtain ⟨n, hn⟩ := exists_completed_run accepts (s.run sink rs).2 hlink
    exact ⟨n, by rwa [run_append]⟩
  · have hframes : StreamAct.accepted (Report.actsOf (s.run sink rs).1) =
        (s.queued sink rs).flatten.map Packet.toBytes := by
      have hpackets := queue_handovers sink rs s
      rw [hempty, idle, List.append_nil, List.nil_append] at hpackets
      rw [StreamAct.accepted_of_ok hoffers, ← offers_handovers, ← hpackets, List.map_map,
        List.map_map]
      rfl
    have hready : r.receiver.ReadyFor s.sender.nextMessage := by
      rw [fresh]
      exact ⟨rfl, rfl, fun _ h => nomatch h⟩
    rw [hframes]
    exact feedAll_batched sink' hbatched hready room countable
  · rw [answer_write_iff accepts hlink (by rwa [hlimit]) m op, hlimit]

/-! ## A run in which the message number wraps -/

/-- The link on the bench accepts everything as long as it is not told to refuse. -/
theorem accepts_sink : Bench.Sink.frames.Accepts fun k => k.refusal = none :=
  fun _ k hk => ⟨k, by simp [Bench.Sink.frames, hk], hk⟩

/-- A stream whose next message has the last number there is. -/
def nearWrap : PacketStream Bench.Sink where
  link := ⟨none⟩
  role := .responder
  size := 20
  roomy := by decide
  limit := 200
  sender := ⟨4294967295, [], false⟩
  receiver := .fresh

/-- A stream that has exchanged versions. -/
def readied : PacketStream Bench.Sink :=
  { nearWrap with receiver := { Receiver.fresh with exchanged := true } }

/-- Two messages, the second one in larger frames and before the first one is through. -/
def acrossWrap : List Request :=
  [.write ⟨none, false, [1, 2, 3]⟩ .handshake, .resize 40, .completed, .write ⟨none, true, []⟩ .client] ++
    List.replicate 14 .completed

/-- Two messages are sent across the last number there is, the second one in larger frames, and both are
delivered. -/
theorem delivers_acrossWrap :
    (nearWrap.run Bench.Sink.frames acrossWrap).2.sender.queue = [] ∧
    (nearWrap.run Bench.Sink.frames acrossWrap).2.sender.nextMessage = 1 ∧
    (readied.feedAll Bench.Sink.frames (StreamAct.accepted
        (Report.actsOf (nearWrap.run Bench.Sink.frames acrossWrap).1))).1 =
      [.delivered ⟨none, false, [1, 2, 3]⟩ .handshake, .delivered ⟨none, true, []⟩ .client] := by
  have hempty : (nearWrap.run Bench.Sink.frames acrossWrap).2.sender.queue = [] := by
    decide +kernel
  have htaken : taken acrossWrap (nearWrap.run Bench.Sink.frames acrossWrap).1 =
      [(⟨none, false, [1, 2, 3]⟩, .handshake), (⟨none, true, []⟩, .client)] := by
    decide +kernel
  have h := delivers (r := readied) accepts_sink (s := nearWrap) rfl rfl (by decide)
    Bench.Sink.frames rfl (Nat.le_refl _) acrossWrap
  refine ⟨hempty, by decide +kernel, ?_⟩
  rw [h.2.1 hempty, htaken]
  rfl

end DevicePairing.PacketStream
