import DevicePairing.Stream.Packet.Stream

/-!
# Runs of the sending side

What may be asked of the sending side of a packet stream: that it writes a message, that it takes note of
a packet that is through, that it changes the size of its frames. A run makes such requests one after
another. The link is arbitrary and may refuse frames in any pattern.

`PacketStream.Served` lists what may come of a request, so that later proofs take its cases apart and none
of the functions. The law behind everything else is conservation (`PacketStream.queue_handovers`): the
packets that were handed to the link, accepted or not, followed by the queue, are the packets of the
messages that were taken, in order. No packet is handed out twice, and none is passed over.
-/

namespace DevicePairing

/-- The frames handed to the link with its answers, in order. -/
def StreamAct.offers : List StreamAct → List (Bytes × Except LinkError Unit)
  | [] => []
  | .handed frame answer :: acts => (frame, answer) :: offers acts
  | _ :: acts => offers acts

/-- Frames are handed over one after another. -/
@[simp] theorem StreamAct.offers_append (acts acts' : List StreamAct) :
    offers (acts ++ acts') = offers acts ++ offers acts' := by
  induction acts with
  | nil => rfl
  | cons a acts ih => cases a <;> simp [offers, ih]

/-- A link that accepts whatever it is offered has accepted it all. -/
theorem StreamAct.accepted_of_ok {acts : List StreamAct} (h : ∀ o ∈ offers acts, o.2 = .ok ()) :
    accepted acts = (offers acts).map Prod.fst := by
  induction acts with
  | nil => rfl
  | cons a acts ih =>
    cases a with
    | handed frame answer =>
      obtain ⟨hanswer, hacts⟩ := List.forall_mem_cons.1 h
      cases hanswer
      exact congrArg (frame :: ·) (ih hacts)
    | delivered _ _ | reported _ => exact ih h

namespace PacketStream

/-- One thing that is asked of the sending side. -/
inductive Request where
  /-- A message is to be written. -/
  | write (message : DeviceMessage) (operation : Operation)
  /-- The packet under way is through. -/
  | completed
  /-- Frames are to have another size. -/
  | resize (size : Nat)
  deriving DecidableEq

/-- What came of a request. -/
structure Report where
  /-- How it is answered. -/
  answer : Except StreamError Unit
  /-- What was done. -/
  acts : List StreamAct

/-- Everything that was done, in order. -/
def Report.actsOf (reports : List Report) : List StreamAct := reports.flatMap Report.acts

/-- With no report nothing was done. -/
@[simp] theorem Report.actsOf_nil : Report.actsOf [] = [] := rfl

/-- The acts of the first report come first. -/
@[simp] theorem Report.actsOf_cons (report : Report) (reports : List Report) :
    Report.actsOf (report :: reports) = report.acts ++ Report.actsOf reports := List.flatMap_cons

variable {κ : Type} (sink : FrameSink κ)

/-- Deals with a request. -/
def serve : Request → PacketStream κ → Report × PacketStream κ
  | .write m op, s =>
    let (answer, acts, s) := s.write sink m op
    (⟨answer, acts⟩, s)
  | .completed, s =>
    let (acts, s) := s.completed sink
    (⟨.ok (), acts⟩, s)
  | .resize size, s =>
    let (answer, s) := s.setSize size
    (⟨answer, []⟩, s)

/-- Deals with requests one after another. -/
def run : List Request → PacketStream κ → List Report × PacketStream κ
  | [], s => ([], s)
  | r :: rs, s =>
    let (report, s) := s.serve sink r
    let (reports, s) := run rs s
    (report :: reports, s)

/-- A run without requests leaves the stream as it is. -/
@[simp] theorem run_nil (s : PacketStream κ) : s.run sink [] = ([], s) := rfl

/-- A run goes on from what its first request leaves. -/
theorem run_cons (r : Request) (rs : List Request) (s : PacketStream κ) :
    s.run sink (r :: rs) =
      ((s.serve sink r).1 :: ((s.serve sink r).2.run sink rs).1,
        ((s.serve sink r).2.run sink rs).2) := rfl

/-- A run may be taken apart anywhere. -/
theorem run_append (rs rs' : List Request) (s : PacketStream κ) :
    s.run sink (rs ++ rs') =
      ((s.run sink rs).1 ++ ((s.run sink rs).2.run sink rs').1,
        ((s.run sink rs).2.run sink rs').2) := by
  induction rs generalizing s with
  | nil => rfl
  | cons r rs ih => rw [List.cons_append, run_cons, ih, run_cons, List.cons_append]

/-- The packets that join the queue with a request: those of a message, if it is taken. -/
def joins (r : Request) (s : PacketStream κ) : List Packet :=
  match r with
  | .write m op =>
    if s.limit < (Envelope.encode m op).length then []
    else
      match Packet.split (Envelope.encode m op) s.sender.nextMessage s.size with
      | .ok packets => packets
      | .error _ => []
  | _ => []

/-- The packets that join the queue over a run, request by request. -/
def queued : List Request → PacketStream κ → List (List Packet)
  | [], _ => []
  | r :: rs, s => s.joins r :: queued rs (s.serve sink r).2

/-- The packets handed to the link with a request, with its answers: the first of those that wait, as many
as there are answers. -/
def handed (r : Request) (s : PacketStream κ) : List (Packet × Except LinkError Unit) :=
  (s.sender.queue ++ s.joins r).zip ((StreamAct.offers (s.serve sink r).1.acts).map Prod.snd)

/-- The packets handed to the link over a run, with its answers, in order. -/
def handovers : List Request → PacketStream κ → List (Packet × Except LinkError Unit)
  | [], _ => []
  | r :: rs, s => s.handed sink r ++ handovers rs (s.serve sink r).2

/-! ## What may come of a request -/

/-- The stream with a message in the queue. -/
def enqueue (packets : List Packet) (s : PacketStream κ) : PacketStream κ :=
  { s with sender := { s.sender with
      nextMessage := s.sender.nextMessage + 1, queue := s.sender.queue ++ packets } }

/-- The stream with nothing under way. -/
def landed (s : PacketStream κ) : PacketStream κ :=
  { s with sender := { s.sender with inFlight := false } }

/-- What may come of the attempt to hand the next packet to the link. -/
inductive Sent (s : PacketStream κ) :
    Except StreamError Unit → List StreamAct → PacketStream κ → Prop where
  /-- A packet is under way, or there is none left. -/
  | nothing (idle : s.sender.inFlight = true ∨ s.sender.queue = []) : Sent s (.ok ()) [] s
  /-- The link accepts it. -/
  | accepted {p : Packet} {queue : List Packet} {link : κ} (ready : s.sender.inFlight = false)
    (next : s.sender.queue = p :: queue) (answer : sink.send p.toBytes s.link = (.ok (), link)) :
    Sent s (.ok ()) [.handed p.toBytes (.ok ())]
      { s with link, sender := { s.sender with queue, inFlight := true } }
  /-- The link refuses it. -/
  | refused {p : Packet} {queue : List Packet} {link : κ} {e : LinkError}
    (ready : s.sender.inFlight = false) (next : s.sender.queue = p :: queue)
    (answer : sink.send p.toBytes s.link = (.error e, link)) :
    Sent s (.error (.link e)) [.handed p.toBytes (.error e)]
      { s with link, sender := { s.sender with queue } }

/-- Nothing else can come of the attempt to send. -/
theorem sent_sendNext (s : PacketStream κ) :
    Sent sink s (s.sendNext sink).1 (s.sendNext sink).2.1 (s.sendNext sink).2.2 := by
  unfold sendNext
  by_cases hflight : s.sender.inFlight = true
  · rw [if_pos hflight]
    exact .nothing (.inl hflight)
  rw [if_neg hflight]
  have hready : s.sender.inFlight = false := by simpa using hflight
  rcases hqueue : s.sender.queue with _ | ⟨p, queue⟩
  · exact .nothing (.inr hqueue)
  rcases hsend : sink.send p.toBytes s.link with ⟨_ | _, link⟩
  · have h := Sent.refused hready hqueue hsend
    simpa [hand, hsend] using h
  · have h := Sent.accepted hready hqueue hsend
    simpa [hand, hsend] using h

/-- The listener is told of a refusal to which nobody waits for an answer. -/
def complaint : Except StreamError Unit → List StreamAct
  | .ok _ => []
  | .error e => [.reported e]

/-- What may come of a request: the packets that join the queue, the report, and the stream after it. -/
inductive Served (s : PacketStream κ) :
    Request → List Packet → Report → PacketStream κ → Prop where
  /-- The message is too long. -/
  | tooLong {m : DeviceMessage} {op : Operation}
    (long : s.limit < (Envelope.encode m op).length) :
    Served s (.write m op) []
      ⟨.error (.messageTooLarge (Envelope.encode m op).length s.limit), []⟩ s
  /-- The message takes more packets than can be counted; its number is used up. -/
  | unsplit {m : DeviceMessage} {op : Operation} {e : StreamError}
    (fits : (Envelope.encode m op).length ≤ s.limit)
    (split : Packet.split (Envelope.encode m op) s.sender.nextMessage s.size = .error e) :
    Served s (.write m op) [] ⟨.error e, []⟩ (s.enqueue [])
  /-- The message is taken. -/
  | written {m : DeviceMessage} {op : Operation} {packets : List Packet}
    {answer : Except StreamError Unit} {acts : List StreamAct} {s' : PacketStream κ}
    (fits : (Envelope.encode m op).length ≤ s.limit)
    (split : Packet.split (Envelope.encode m op) s.sender.nextMessage s.size = .ok packets)
    (sent : Sent sink (s.enqueue packets) answer acts s') :
    Served s (.write m op) packets ⟨answer, acts⟩ s'
  /-- The packet under way is through. -/
  | through {answer : Except StreamError Unit} {acts : List StreamAct} {s' : PacketStream κ}
    (sent : Sent sink s.landed answer acts s') :
    Served s .completed [] ⟨.ok (), acts ++ complaint answer⟩ s'
  /-- Frames have another size. -/
  | resized {size : Nat} (roomy : packetHeaderSize < size) :
    Served s (.resize size) [] ⟨.ok (), []⟩ { s with size, roomy }
  /-- The size leaves no room. -/
  | cramped {size : Nat} (cramped : ¬ packetHeaderSize < size) :
    Served s (.resize size) [] ⟨.error (.writeSize size), []⟩ s

/-- Nothing else can come of a message that is written. -/
theorem served_write (m : DeviceMessage) (op : Operation) (s : PacketStream κ) :
    Served sink s (.write m op) (s.joins (.write m op)) (s.serve sink (.write m op)).1
      (s.serve sink (.write m op)).2 := by
  unfold serve write joins
  dsimp only
  by_cases hlong : s.limit < (Envelope.encode m op).length
  · rw [if_pos hlong, if_pos hlong]
    exact .tooLong hlong
  rw [if_neg hlong, if_neg hlong]
  rcases hsplit : Packet.split (Envelope.encode m op) s.sender.nextMessage s.size with e | packets
  · have h : Served sink s (.write m op) [] ⟨.error e, []⟩ (s.enqueue []) :=
      .unsplit (Nat.not_lt.1 hlong) hsplit
    simpa [enqueue] using h
  · exact .written (Nat.not_lt.1 hlong) hsplit (sent_sendNext sink (s.enqueue packets))

/-- Nothing else can come of a packet that is through. -/
theorem served_completed (s : PacketStream κ) :
    Served sink s .completed [] (s.serve sink .completed).1 (s.serve sink .completed).2 := by
  have hsent := sent_sendNext sink s.landed
  rcases hnext : s.landed.sendNext sink with ⟨answer, acts, s'⟩
  have hcompleted : s.completed sink = (acts ++ complaint answer, s') := by
    unfold completed
    unfold landed at hnext
    rw [hnext]
    cases answer with
    | error e => rfl
    | ok _ => exact congrArg (·, s') (List.append_nil acts).symm
  have hserve : s.serve sink .completed = (⟨.ok (), acts ++ complaint answer⟩, s') := by
    simp only [serve, hcompleted]
  rw [hnext] at hsent
  rw [hserve]
  exact .through hsent

/-- Nothing else can come of another size for frames. -/
theorem served_resize (size : Nat) (s : PacketStream κ) :
    Served sink s (.resize size) [] (s.serve sink (.resize size)).1
      (s.serve sink (.resize size)).2 := by
  show Served sink s (.resize size) [] ⟨(s.setSize size).1, []⟩ (s.setSize size).2
  unfold setSize
  by_cases hroomy : packetHeaderSize < size
  · rw [dif_pos hroomy]
    exact .resized hroomy
  · rw [dif_neg hroomy]
    exact .cramped hroomy

/-- So nothing else can come of any request. -/
theorem served_serve (r : Request) (s : PacketStream κ) :
    Served sink s r (s.joins r) (s.serve sink r).1 (s.serve sink r).2 := by
  cases r with
  | write m op => exact served_write sink m op s
  | completed => exact served_completed sink s
  | resize size => exact served_resize sink size s

/-! ## Conservation -/

variable {sink} {s s' : PacketStream κ} {r : Request} {packets : List Packet} {report : Report}
  {answer : Except StreamError Unit} {acts : List StreamAct}

/-- To tell of a refusal is not to hand anything over. -/
@[simp] theorem offers_complaint (answer : Except StreamError Unit) :
    StreamAct.offers (complaint answer) = [] := by
  cases answer <;> rfl

/-- An attempt to send does not change how long messages may be. -/
theorem Sent.limit (h : Sent sink s answer acts s') : s'.limit = s.limit := by
  cases h <;> rfl

/-- It takes no number. -/
theorem Sent.nextMessage (h : Sent sink s answer acts s') :
    s'.sender.nextMessage = s.sender.nextMessage := by
  cases h <;> rfl

/-- Either nothing is handed over, or the packet in front. Only if it is accepted it is under way then. -/
theorem Sent.hands (h : Sent sink s answer acts s') :
    (StreamAct.offers acts = [] ∧ s'.sender.queue = s.sender.queue) ∨
      ∃ p a, StreamAct.offers acts = [(p.toBytes, a)] ∧ s.sender.queue = p :: s'.sender.queue ∧
        (s'.sender.inFlight = true ↔ a = .ok ()) := by
  cases h with
  | nothing _ => exact .inl ⟨rfl, rfl⟩
  | @accepted p _ _ _ next _ => exact .inr ⟨p, _, rfl, next, by simp⟩
  | @refused p _ _ e ready next _ => exact .inr ⟨p, _, rfl, next, by simp [ready]⟩

/-- No request changes how long messages may be. -/
theorem Served.limit (h : Served sink s r packets report s') : s'.limit = s.limit := by
  cases h with
  | written _ _ sent => exact sent.limit
  | through sent => exact sent.limit
  | tooLong _ | unsplit _ _ | resized _ | cramped _ => rfl

/-- With a request the first packet of those that wait is handed over, or none, and it is under way exactly if
the link has accepted it. -/
theorem Served.hands (h : Served sink s r packets report s') :
    (StreamAct.offers report.acts = [] ∧ s'.sender.queue = s.sender.queue ++ packets) ∨
      ∃ p a, StreamAct.offers report.acts = [(p.toBytes, a)] ∧
        s.sender.queue ++ packets = p :: s'.sender.queue ∧
        (s'.sender.inFlight = true ↔ a = .ok ()) := by
  cases h with
  | written _ _ sent => exact sent.hands
  | through sent =>
    rw [StreamAct.offers_append, offers_complaint, List.append_nil, List.append_nil]
    exact sent.hands
  | unsplit _ _ => exact .inl ⟨rfl, rfl⟩
  | tooLong _ | resized _ | cramped _ => exact .inl ⟨rfl, (List.append_nil _).symm⟩

variable (sink)

/-- With a request, nothing is handed over, or the packet in front. -/
theorem handed_cases (r : Request) (s : PacketStream κ) :
    (s.handed sink r = [] ∧ StreamAct.offers (s.serve sink r).1.acts = [] ∧
      (s.serve sink r).2.sender.queue = s.sender.queue ++ s.joins r) ∨
    ∃ p a, s.handed sink r = [(p, a)] ∧
      StreamAct.offers (s.serve sink r).1.acts = [(p.toBytes, a)] ∧
      s.sender.queue ++ s.joins r = p :: (s.serve sink r).2.sender.queue ∧
      ((s.serve sink r).2.sender.inFlight = true ↔ a = .ok ()) := by
  unfold handed
  rcases (served_serve sink r s).hands with ⟨hoffers, hqueue⟩ | ⟨p, a, hoffers, hqueue, hflight⟩
  · exact .inl ⟨by rw [hoffers, List.map_nil, List.zip_nil_right], hoffers, hqueue⟩
  · refine .inr ⟨p, a, ?_, hoffers, hqueue, hflight⟩
    rw [hoffers, hqueue, List.map_singleton, List.zip_cons_cons, List.zip_nil_right]

/-- What is handed over is what the link is offered. -/
theorem offers_handed (r : Request) (s : PacketStream κ) :
    (s.handed sink r).map (fun o => (o.1.toBytes, o.2)) =
      StreamAct.offers (s.serve sink r).1.acts := by
  rcases handed_cases sink r s with ⟨hhanded, hoffers, _⟩ | ⟨p, a, hhanded, hoffers, _⟩
  · rw [hhanded, hoffers, List.map_nil]
  · rw [hhanded, hoffers, List.map_singleton]

/-- What is handed over and what then waits is what had waited and what joined. -/
theorem queue_handed (r : Request) (s : PacketStream κ) :
    (s.handed sink r).map Prod.fst ++ (s.serve sink r).2.sender.queue =
      s.sender.queue ++ s.joins r := by
  rcases handed_cases sink r s with ⟨hhanded, _, hqueue⟩ | ⟨p, a, hhanded, _, hqueue, _⟩
  · rw [hhanded, hqueue, List.map_nil, List.nil_append]
  · rw [hhanded, hqueue, List.map_singleton, List.singleton_append]

/-- The packets handed over are those whose frames the link was handed. -/
theorem offers_handovers (rs : List Request) (s : PacketStream κ) :
    (s.handovers sink rs).map (fun o => (o.1.toBytes, o.2)) =
      StreamAct.offers (Report.actsOf (s.run sink rs).1) := by
  induction rs generalizing s with
  | nil => rfl
  | cons r rs ih =>
    rw [handovers, List.map_append, offers_handed, ih, run_cons, Report.actsOf_cons,
      StreamAct.offers_append]

/-- Over a run nothing is lost, repeated or moved: the packets handed to the link and then the queue are
the packets that waited at the start and those that joined, in order. -/
theorem queue_handovers (rs : List Request) (s : PacketStream κ) :
    (s.handovers sink rs).map Prod.fst ++ (s.run sink rs).2.sender.queue =
      s.sender.queue ++ (s.queued sink rs).flatten := by
  induction rs generalizing s with
  | nil => simp [handovers, queued]
  | cons r rs ih =>
    rw [handovers, List.map_append, List.append_assoc, run_cons, ih, ← List.append_assoc,
      queue_handed, queued, List.flatten_cons, List.append_assoc]

end PacketStream

end DevicePairing
