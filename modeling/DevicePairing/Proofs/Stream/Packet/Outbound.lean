import DevicePairing.Proofs.Stream.Packet.Delivery
import DevicePairing.Proofs.Stream.Packet.Width

/-!
# The queue of a new stream

What a stream has sent and what waits in it can be told from the requests alone, if the link accepts every
frame. `letters` goes through the requests and lists the messages that are short enough, each with the size
that frames have when it is written; numbered from zero on, they are cut into packets, and these are what
leaves the stream, one packet at a time. `PacketStream.conveys_run` says so, and also what a maintainer relies
on when the link is slow or says twice that a packet is through: nothing waits unless a packet is under way,
so the queue never stalls; no more packets leave than the link has asked for, the first one apart; and a
message is refused only for its length, without a trace.

Three facts about one request carry it: what the request puts in the queue is the letter it stands for
(`Served.posts`), the queue stays prompt (`Served.prompt`), and a frame that leaves is paid for by a completion
or by the packet now under way (`Served.paced`).
-/

namespace DevicePairing.PacketStream

variable {κ : Type} {sink : FrameSink κ} {good : κ → Prop} {s s' : PacketStream κ} {r : Request}
  {packets : List Packet} {report : Report} {answer : Except StreamError Unit} {acts : List StreamAct}

/-! ## What the requests come to -/

/-- A message with the size that frames have when it is written. -/
structure Letter where
  /-- The message. -/
  message : DeviceMessage
  /-- What it is for. -/
  operation : Operation
  /-- The size of frames. -/
  size : Nat

/-- The packets of a letter with a number. Numbers are of 32 bits, so they wrap. -/
def Letter.cut (l : Letter) (n : Nat) : Except StreamError (List Packet) :=
  Packet.split (Envelope.encode l.message l.operation) (UInt32.ofNat n) l.size

/-- The letter that a request stands for: it writes a message, and the message is not too long. -/
def Request.letter? (limit size : Nat) : Request → Option Letter
  | .write m op => if (Envelope.encode m op).length ≤ limit then some ⟨m, op, size⟩ else none
  | _ => none

/-- The size of frames after a request. -/
def Request.sizeAfter (size : Nat) : Request → Nat
  | .resize n => if packetHeaderSize < n then n else size
  | _ => size

/-- The letters of requests one after another, from a size of frames on. -/
def letters (limit : Nat) : Nat → List Request → List Letter
  | _, [] => []
  | size, r :: rs => (r.letter? limit size).toList ++ letters limit (r.sizeAfter size) rs

/-! ## One request -/

/-- Frames have another size after a request only if it was to give them one. -/
theorem Served.size_eq (h : Served sink s r packets report s') : s'.size = r.sizeAfter s.size := by
  cases h with
  | resized roomy => exact (if_pos roomy).symm
  | cramped cramped => exact (if_neg cramped).symm
  | tooLong _ | unsplit _ _ => rfl
  | written _ _ sent => exact sent.size
  | through sent => exact sent.size

/-- With a request that stands for a letter, the packets of the letter join the queue under the next number.
With any other request nothing joins, and the next number stays. -/
inductive Posts (limit : Nat) (s : PacketStream κ) (r : Request) (packets : List Packet) (report : Report)
    (s' : PacketStream κ) : Prop where
  /-- There is no letter. -/
  | nothing (letter : r.letter? limit s.size = none) (none : packets = []) (untaken : r.taken report = [])
    (number : s'.sender.nextMessage = s.sender.nextMessage)
  /-- There is one. -/
  | letter {l : Letter} (letter : r.letter? limit s.size = some l)
    (cut : Packet.split (Envelope.encode l.message l.operation) s.sender.nextMessage l.size = .ok packets)
    (taken : r.taken report = [(l.message, l.operation)])
    (number : s'.sender.nextMessage = s.sender.nextMessage + 1)

/-- A request posts the letter that it stands for, if it stands for one. -/
theorem Served.posts (h : Served sink s r packets report s') (accepts : sink.Accepts good)
    (link : good s.link) (countable : s.limit < Packet.maxTotal) :
    Posts s.limit s r packets report s' := by
  cases h with
  | tooLong long => exact .nothing (if_neg (Nat.not_le.2 long)) rfl rfl rfl
  | unsplit fits split => exact absurd split (split_ne_error fits countable)
  | written fits split sent =>
    obtain ⟨rfl, _⟩ := sent.of_accepts accepts link
    exact .letter (if_pos fits) split rfl sent.nextMessage
  | through sent => exact .nothing rfl rfl rfl sent.nextMessage
  | resized _ | cramped _ => exact .nothing rfl rfl rfl rfl

/-- Nothing waits unless a packet is under way. -/
def Prompt (s : PacketStream κ) : Prop := s.sender.inFlight = false → s.sender.queue = []

/-- Whatever waited before, the attempt to hand over the next packet leaves nothing waiting without reason. -/
theorem Sent.prompt (h : Sent sink s answer acts s') (accepts : sink.Accepts good) (link : good s.link) :
    s'.Prompt := by
  obtain ⟨hanswer, _⟩ := h.of_accepts accepts link
  cases h with
  | nothing idle =>
    intro ready
    rcases idle with hflight | hempty
    · exact absurd (ready.symm.trans hflight) Bool.false_ne_true
    · exact hempty
  | accepted _ _ _ => exact nofun
  | refused _ _ _ => cases hanswer

/-- If nothing waited without need before a request, nothing does after it. -/
theorem Served.prompt (h : Served sink s r packets report s') (accepts : sink.Accepts good)
    (link : good s.link) (countable : s.limit < Packet.maxTotal) (prompt : s.Prompt) : s'.Prompt := by
  cases h with
  | unsplit fits split => exact absurd split (split_ne_error fits countable)
  | written _ _ sent => exact sent.prompt accepts link
  | through sent => exact sent.prompt accepts link
  | tooLong _ | resized _ | cramped _ => exact prompt

/-- A frame leaves only while none is under way, and then one is. -/
theorem Sent.paced (h : Sent sink s answer acts s') :
    (StreamAct.accepted acts).length + s.sender.inFlight.toNat = s'.sender.inFlight.toNat := by
  cases h with
  | nothing _ => exact Nat.zero_add _
  | accepted ready _ _ =>
    rewrite [ready]
    rfl
  | refused _ _ _ => exact Nat.zero_add _

/-- To tell of a refusal is not to hand anything over. -/
@[simp] theorem accepted_complaint (answer : Except StreamError Unit) :
    StreamAct.accepted (complaint answer) = [] := by
  cases answer <;> rfl

/-- With a request, a frame leaves only if the request says that the one before it is through, or if none was
under way and this one is now. -/
theorem Served.paced (h : Served sink s r packets report s') :
    (StreamAct.accepted report.acts).length + s.sender.inFlight.toNat ≤
      [r].count .completed + s'.sender.inFlight.toNat := by
  cases h with
  | written _ _ sent => exact Nat.le_trans (Nat.le_of_eq sent.paced) (Nat.le_add_left _ _)
  | through sent =>
    -- What was under way is through, so this completion pays for it, and the packet that leaves is under way.
    have hpaced := sent.paced
    have hflight := Bool.toNat_le s.sender.inFlight
    rw [StreamAct.accepted_append, accepted_complaint, List.append_nil, List.count_singleton_self]
    rw [show s.landed.sender.inFlight.toNat = 0 from rfl, Nat.add_zero] at hpaced
    omega
  | tooLong _ | unsplit _ _ | resized _ | cramped _ =>
    exact Nat.add_le_add_right (Nat.zero_le _) _

/-! ## Runs -/

/-- What joins the queue over a run are the packets of the letters, under consecutive numbers. -/
theorem posts_run (accepts : sink.Accepts good) (rs : List Request) (s : PacketStream κ) (n : Nat)
    (number : s.sender.nextMessage = UInt32.ofNat n) (link : good s.link)
    (countable : s.limit < Packet.maxTotal) :
    (∃ batches, ((letters s.limit s.size rs).zipIdx n).mapM (fun l => l.1.cut l.2) = .ok batches ∧
      (s.queued sink rs).flatten = batches.flatten) ∧
    taken rs (s.run sink rs).1 = (letters s.limit s.size rs).map (fun l => (l.message, l.operation)) ∧
    (s.run sink rs).2.sender.nextMessage = UInt32.ofNat (n + (letters s.limit s.size rs).length) := by
  induction rs generalizing s n with
  | nil => exact ⟨⟨[], rfl, rfl⟩, rfl, number⟩
  | cons r rs ih =>
    have hserved := served_serve sink r s
    have hlink := (hserved.of_accepts accepts link).2
    have hlimit := hserved.limit
    have hsize := hserved.size_eq
    have hcountable : (s.serve sink r).2.limit < Packet.maxTotal := by rwa [hlimit]
    rw [letters, queued, List.flatten_cons, run_cons, taken_cons]
    cases hserved.posts accepts link countable with
    | nothing letter none untaken hnumber =>
      have hrest := ih _ n (hnumber.trans number) hlink hcountable
      rw [hlimit, hsize] at hrest
      rw [letter, none, untaken]
      exact hrest
    | @letter l letter cut htaken hnumber =>
      have hnext : (s.serve sink r).2.sender.nextMessage = UInt32.ofNat (n + 1) := by
        rw [hnumber, number, UInt32.ofNat_add]
        rfl
      have hcut : l.cut n = .ok (s.joins r) := by rw [Letter.cut, ← number, cut]
      obtain ⟨⟨batches, hbatches, hqueued⟩, hrest, hlast⟩ := ih _ (n + 1) hnext hlink hcountable
      rw [hlimit, hsize] at hbatches hrest hlast
      rw [letter, htaken]
      refine ⟨⟨s.joins r :: batches, ?_, ?_⟩, ?_, ?_⟩
      · rw [Option.toList_some, List.singleton_append, List.zipIdx_cons, List.mapM_cons, hcut, hbatches]
        rfl
      · rw [hqueued, List.flatten_cons]
      · rewrite [hrest]
        rfl
      · rw [hlast, Option.toList_some, List.singleton_append, List.length_cons, Nat.add_right_comm,
          Nat.add_assoc]

/-- So nothing waits without need after a run. -/
theorem prompt_run (accepts : sink.Accepts good) (rs : List Request) (s : PacketStream κ)
    (link : good s.link) (countable : s.limit < Packet.maxTotal) (prompt : s.Prompt) :
    (s.run sink rs).2.Prompt := by
  induction rs generalizing s with
  | nil => exact prompt
  | cons r rs ih =>
    have hserved := served_serve sink r s
    have hcountable : (s.serve sink r).2.limit < Packet.maxTotal := by rwa [hserved.limit]
    exact ih _ (hserved.of_accepts accepts link).2 hcountable
      (hserved.prompt accepts link countable prompt)

variable (sink)

/-- Over any link, a run makes no more frames leave than there are completions and the packet under way. -/
theorem paced_run (rs : List Request) (s : PacketStream κ) :
    (StreamAct.accepted (Report.actsOf (s.run sink rs).1)).length + s.sender.inFlight.toNat ≤
      rs.count .completed + (s.run sink rs).2.sender.inFlight.toNat := by
  induction rs generalizing s with
  | nil => exact Nat.le_of_eq rfl
  | cons r rs ih =>
    have hnow := (served_serve sink r s).paced
    have hrest := ih (s.serve sink r).2
    rw [run_cons, Report.actsOf_cons, StreamAct.accepted_append, List.length_append, List.count_cons]
    rw [List.count_singleton] at hnow
    dsimp only at hrest ⊢
    omega

/-- If a link accepts what it is offered and nothing waited at first, what it was given and what waits then are the
packets that joined the queue. -/
theorem accepted_append_queue (rs : List Request) (s : PacketStream κ) (empty : s.sender.queue = [])
    (offers : ∀ o ∈ StreamAct.offers (Report.actsOf (s.run sink rs).1), o.2 = .ok ()) :
    StreamAct.accepted (Report.actsOf (s.run sink rs).1) ++
        (s.run sink rs).2.sender.queue.map Packet.toBytes =
      (s.queued sink rs).flatten.map Packet.toBytes := by
  have hpackets := queue_handovers sink rs s
  rw [empty, List.nil_append] at hpackets
  rw [StreamAct.accepted_of_ok offers, ← offers_handovers, ← hpackets, List.map_append, List.map_map,
    List.map_map]
  rfl

/-! ## What is refused -/

/-- A message that is too long is refused, and nothing else happens. -/
theorem serve_write_of_lt {m : DeviceMessage} {op : Operation}
    (long : s.limit < (Envelope.encode m op).length) :
    s.serve sink (.write m op) =
      (⟨.error (.messageTooLarge (Envelope.encode m op).length s.limit), []⟩, s) := by
  have hwrite : s.write sink m op =
      (.error (.messageTooLarge (Envelope.encode m op).length s.limit), [], s) := if_pos long
  rw [serve, hwrite]

/-- Frames always have room behind the header of a packet, so this is never the reason to refuse a message. -/
theorem answer_write_ne (accepts : sink.Accepts good) (link : good s.link)
    (countable : s.limit < Packet.maxTotal) (m : DeviceMessage) (op : Operation) (size : Nat) :
    (s.serve sink (.write m op)).1.answer ≠ .error (.writeSize size) := by
  intro hrefused
  by_cases fits : (Envelope.encode m op).length ≤ s.limit
  · rw [(answer_write_iff accepts link countable m op).2 fits] at hrefused
    cases hrefused
  · rw [serve_write_of_lt sink (Nat.not_le.1 fits)] at hrefused
    cases hrefused

/-! ## All runs of a new stream -/

/-- What a stream is like when it is made. -/
theorem eq_of_ofConfig {link : κ} {c : Config} {role : OfferRole} (made : ofConfig link c role = .ok s) :
    s.link = link ∧ s.limit = c.maxMessageSize ∧ s.size = c.maxWriteSize ∧ s.sender = ⟨0, [], false⟩ := by
  unfold ofConfig at made
  split at made
  · cases made
    exact ⟨rfl, rfl, rfl, rfl⟩
  · cases made

variable {sink}

/-- What a stream has done over a run from its making on, and how it stands then. -/
structure Conveys (sink : FrameSink κ) (c : Config) (rs : List Request) (reports : List Report)
    (s : PacketStream κ) : Prop where
  /-- What the link was given, and then what waits, are the packets of the letters, numbered from zero on. -/
  packets : ∃ batches,
    (letters c.maxMessageSize c.maxWriteSize rs).zipIdx.mapM (fun l => l.1.cut l.2) = .ok batches ∧
      StreamAct.accepted (Report.actsOf reports) ++ s.sender.queue.map Packet.toBytes =
        batches.flatten.map Packet.toBytes
  /-- The letters are the messages whose writing was answered with success. -/
  taken : taken rs reports =
    (letters c.maxMessageSize c.maxWriteSize rs).map fun l => (l.message, l.operation)
  /-- The next message gets the next number. -/
  number : s.sender.nextMessage =
    UInt32.ofNat (letters c.maxMessageSize c.maxWriteSize rs).length
  /-- If no packet is under way, none waits. -/
  prompt : s.sender.inFlight = false → s.sender.queue = []
  /-- At most one packet more was sent than were through. -/
  paced : (StreamAct.accepted (Report.actsOf reports)).length ≤ rs.count .completed + 1
  /-- No message is refused for the size of frames. -/
  sized : ∀ m op size, (s.serve sink (.write m op)).1.answer ≠ .error (.writeSize size)
  /-- A message that is too long is refused without a trace. -/
  refuses : ∀ m op, c.maxMessageSize < (Envelope.encode m op).length →
    s.serve sink (.write m op) =
      (⟨.error (.messageTooLarge (Envelope.encode m op).length c.maxMessageSize), []⟩, s)

/-- Whatever is asked of a new stream over a link that accepts every frame, and in whatever order: it sends the
packets of the messages it takes, in order and under consecutive numbers, what it has not sent yet waits, nothing
waits unless a packet is under way, and a message is refused only for its length. -/
theorem conveys_run {link : κ} {c : Config} {role : OfferRole} (made : ofConfig link c role = .ok s)
    (countable : c.maxMessageSize < Packet.maxTotal) (accepts : sink.Accepts good) (hlink : good link)
    (rs : List Request) : Conveys sink c rs (s.run sink rs).1 (s.run sink rs).2 := by
  obtain ⟨rfl, hlimit, hsize, hsender⟩ := eq_of_ofConfig made
  have hqueue : s.sender.queue = [] := by rw [hsender]
  have hnumber : s.sender.nextMessage = UInt32.ofNat 0 := by
    rewrite [hsender]
    rfl
  have hcountable : s.limit < Packet.maxTotal := by rwa [hlimit]
  obtain ⟨_, hoffers, hlink', hlimit'⟩ := batched_run accepts rs s hlink hcountable
  obtain ⟨⟨batches, hbatches, hqueued⟩, htaken, hlast⟩ :=
    posts_run accepts rs s 0 hnumber hlink hcountable
  rw [hlimit, hsize] at hbatches htaken hlast
  rw [hlimit] at hlimit'
  constructor
  case packets =>
    have hframes := accepted_append_queue sink rs s hqueue hoffers
    rw [hqueued] at hframes
    exact ⟨batches, hbatches, hframes⟩
  case taken => exact htaken
  case number => rwa [Nat.zero_add] at hlast
  case prompt => exact prompt_run accepts rs s hlink hcountable fun _ => hqueue
  case paced =>
    have hpaced := paced_run sink rs s
    have hflight := Bool.toNat_le (s.run sink rs).2.sender.inFlight
    omega
  case sized => exact answer_write_ne sink accepts hlink' (by rwa [hlimit'])
  case refuses =>
    intro m op long
    rw [← hlimit'] at long ⊢
    exact serve_write_of_lt sink long

/-! ## Two messages and a third that is too long -/

/-- Settings with frames of twenty-two bytes and messages of at most eighty. -/
def terse : Config := { Config.default with maxWriteSize := 22, maxMessageSize := 80 }

/-- A stream with these settings. -/
def unused : PacketStream Bench.Sink where
  link := ⟨none⟩
  role := .responder
  size := 22
  roomy := by decide
  limit := 80
  sender := ⟨0, [], false⟩
  receiver := .fresh

/-- A completion that nothing waits for, a message, a longer frame, a message that is too long, a completion,
and another message. -/
def assorted : List Request :=
  [.completed, .write ⟨none, false, [1, 2, 3]⟩ .handshake, .resize 40,
    .write ⟨none, false, List.replicate 9 200⟩ .handshake, .completed, .write ⟨none, true, []⟩ .client]

/-- In this run two letters are posted, two packets are handed over and nine wait, as the rules have it. -/
theorem conveys_assorted :
    ofConfig (⟨none⟩ : Bench.Sink) terse .responder = .ok unused ∧
    (letters terse.maxMessageSize terse.maxWriteSize assorted).map Letter.size = [22, 40] ∧
    (StreamAct.accepted (Report.actsOf (unused.run Bench.Sink.frames assorted).1)).length = 2 ∧
    (unused.run Bench.Sink.frames assorted).2.sender.queue.length = 9 ∧
    Conveys Bench.Sink.frames terse assorted (unused.run Bench.Sink.frames assorted).1
      (unused.run Bench.Sink.frames assorted).2 := by
  have hmade : ofConfig (⟨none⟩ : Bench.Sink) terse .responder = .ok unused := rfl
  exact ⟨hmade, by decide +kernel, by decide +kernel, by decide +kernel,
    conveys_run hmade (by decide) accepts_sink rfl assorted⟩

end DevicePairing.PacketStream
