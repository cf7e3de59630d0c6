import DevicePairing.Bench
import DevicePairing.Proofs.Stream.Packet.Intake
import DevicePairing.Proofs.Stream.Packet.Refusal

/-!
# Packets before the exchange of versions

A side that has not seen the other side's versions yet takes every frame for a statement of versions, so a
packet that reaches it early is lost. Nothing on the sending side waits for the exchange: a message that is
written before it goes to the link at once. `PacketStream.withholds_iff_awaits` says when a new stream keeps
its packets back until versions are exchanged: exactly if no message is taken before. The exchange itself
counts as done only after a frame was fed that states compatible versions.

The inputs of a stream are those of its sending side, the call that states its versions, and the frames of
the link, in any order. `PacketStream.Vacant` carries the proof: a stream to which no message was given has
nothing to send, whatever else happens to it, and the first message that it takes makes it send a packet.
-/

namespace DevicePairing

/-- A packet has no part in the exchange of versions. -/
theorem Receiver.exchanged_accept (limit : Nat) (p : Packet) (s : Receiver) :
    (s.accept limit p).2.exchanged = s.exchanged := by
  have haccepted := s.accepted_accept limit p
  generalize s.accept limit p = result at haccepted
  obtain ⟨outcome, s'⟩ := result
  cases haccepted with
  | repeated _ | stray _ _ => rfl
  | tooLong _ _ _ | stored _ _ _ _ | completed _ _ _ _ => exact exchanged_opened p.message s

namespace PacketStream

variable {κ : Type} (sink : FrameSink κ)

/-- One thing that happens to a stream. -/
inductive Input where
  /-- Something is asked of the sending side. -/
  | asked (request : Request)
  /-- It is to state its versions. -/
  | begun
  /-- A frame comes from the link. -/
  | fed (frame : Bytes)
  deriving DecidableEq

/-- What the stream does on an input. -/
def take : Input → PacketStream κ → List StreamAct × PacketStream κ
  | .asked r, s => ((s.serve sink r).1.acts, (s.serve sink r).2)
  | .begun, s => (s.begin sink).2
  | .fed frame, s => s.feed sink frame

/-- The stream after inputs one after another. -/
def takeAll : List Input → PacketStream κ → PacketStream κ
  | [], s => s
  | i :: is, s => takeAll is (s.take sink i).2

variable {sink} in
/-- Inputs may be taken in two parts. -/
theorem takeAll_append (is is' : List Input) (s : PacketStream κ) :
    s.takeAll sink (is ++ is') = (s.takeAll sink is).takeAll sink is' := by
  induction is generalizing s with
  | nil => rfl
  | cons i is ih => exact ih _

/-- The packets handed to the link on an input, with its answers. -/
def sentOn : Input → PacketStream κ → List (Packet × Except LinkError Unit)
  | .asked r, s => s.handed sink r
  | _, _ => []

/-- The packets of the message that is taken on an input, if one is. -/
def takenOn : Input → PacketStream κ → List Packet
  | .asked r, s => s.joins r
  | _, _ => []

/-- As long as versions have not been exchanged, no packet is handed to the link. -/
def Withholds : List Input → PacketStream κ → Prop
  | [], _ => True
  | i :: is, s =>
    (s.receiver.exchanged = false → s.sentOn sink i = []) ∧ Withholds is (s.take sink i).2

/-- As long as versions have not been exchanged, no message is taken. -/
def Awaits : List Input → PacketStream κ → Prop
  | [], _ => True
  | i :: is, s =>
    (s.receiver.exchanged = false → s.takenOn i = []) ∧ Awaits is (s.take sink i).2

/-! ## Inputs that are no requests -/

/-- What may come of a frame that is taken for a statement of versions. -/
inductive Exchanged (s : PacketStream κ) (frame : Bytes) :
    Except StreamError Unit → List StreamAct → PacketStream κ → Prop where
  /-- It does not state compatible versions. -/
  | refused (e : StreamError) : Exchanged s frame (.error e) [] s
  /-- It does, and answers ours. -/
  | answers {offer : VersionOffer} (states : VersionOffer.decode? frame = some offer)
    (compatible : offer.compatible = true) :
    Exchanged s frame (.ok ()) [] { s with receiver := { s.receiver with exchanged := true } }
  /-- It does, and the link takes our answer. -/
  | answered {offer : VersionOffer} {link : κ} (states : VersionOffer.decode? frame = some offer)
    (compatible : offer.compatible = true) :
    Exchanged s frame (.ok ()) [.handed VersionOffer.supported.encode (.ok ())]
      { s with link, receiver := { s.receiver with exchanged := true } }
  /-- It does, but the link refuses our answer. -/
  | unanswered {link : κ} (e : LinkError) :
    Exchanged s frame (.error (.link e)) [.handed VersionOffer.supported.encode (.error e)]
      { s with link }

/-- Nothing else can come of a frame that is taken for a statement of versions. -/
theorem exchanged_exchange (frame : Bytes) (s : PacketStream κ) :
    Exchanged s frame (s.exchange sink frame).1 (s.exchange sink frame).2.1
      (s.exchange sink frame).2.2 := by
  unfold exchange
  split
  · exact .refused _
  · next offer states =>
    split
    · next compatible =>
      split
      · exact .answers states compatible
      · unfold begin hand
        rcases sink.send VersionOffer.supported.encode s.link with ⟨e | _, link⟩
        · exact .unanswered e
        · exact .answered states compatible
    · exact .refused _

/-- What may come of an input other than a request: at most our versions are handed to the link, and the
sending side is left alone. -/
structure Aside (i : Input) (s : PacketStream κ) (acts : List StreamAct) (s' : PacketStream κ) : Prop where
  /-- No other frame is handed to the link. -/
  states : StreamAct.offers acts = [] ∨
    ∃ answer, StreamAct.offers acts = [(VersionOffer.supported.encode, answer)]
  /-- Nothing joins the queue or leaves it. -/
  sender : s'.sender = s.sender
  /-- An exchange that was done stays done. -/
  stays : s.receiver.exchanged = true → s'.receiver.exchanged = true
  /-- It is done only by a frame that states compatible versions. -/
  done : s.receiver.exchanged = false → s'.receiver.exchanged = true →
    ∃ frame offer, i = .fed frame ∧ VersionOffer.decode? frame = some offer ∧ offer.compatible = true

/-- To begin the exchange leaves the sending side alone. -/
theorem aside_begin (s : PacketStream κ) : Aside .begun s (s.begin sink).2.1 (s.begin sink).2.2 where
  states := .inr ⟨_, rfl⟩
  sender := rfl
  stays exchanged := exchanged
  done early done := absurd (early.symm.trans done) Bool.false_ne_true

/-- So does any frame that comes in. -/
theorem aside_feed (frame : Bytes) (s : PacketStream κ) :
    Aside (.fed frame) s (s.feed sink frame).1 (s.feed sink frame).2 := by
  unfold feed
  by_cases hexchanged : s.receiver.exchanged = true
  · have hlate (early : s.receiver.exchanged = false) (P : Prop) : P :=
      absurd (early.symm.trans hexchanged) Bool.false_ne_true
    rw [if_pos hexchanged]
    rcases Packet.parse frame with e | p
    · exact ⟨.inl rfl, rfl, id, fun early _ => hlate early _⟩
    · refine ⟨.inl ?_, rfl, fun _ => ?_, fun early _ => hlate early _⟩
      · dsimp only
        rcases (s.receiver.accept s.limit p).1 with _ | _ | _ | data
        · rfl
        · rfl
        · rfl
        · show StreamAct.offers [.ofEnvelope data] = []
          unfold StreamAct.ofEnvelope
          split <;> rfl
      · exact (Receiver.exchanged_accept s.limit p s.receiver).trans hexchanged
  · rw [if_neg hexchanged]
    have h := exchanged_exchange sink frame s
    generalize s.exchange sink frame = result at h
    obtain ⟨answer, acts, s'⟩ := result
    cases h with
    | refused e =>
      exact ⟨.inl rfl, rfl, id, fun _ done => absurd done hexchanged⟩
    | answers states compatible =>
      exact ⟨.inl rfl, rfl, fun _ => rfl, fun _ _ => ⟨frame, _, rfl, states, compatible⟩⟩
    | answered states compatible =>
      exact ⟨.inr ⟨_, rfl⟩, rfl, fun _ => rfl, fun _ _ => ⟨frame, _, rfl, states, compatible⟩⟩
    | unanswered e =>
      exact ⟨.inr ⟨_, rfl⟩, rfl, id, fun _ done => absurd done hexchanged⟩

/-! ## Requests -/

variable {sink} {s s' : PacketStream κ} {r : Request} {packets : List Packet} {report : Report}
  {answer : Except StreamError Unit} {acts : List StreamAct}

/-- An attempt to send leaves the receiving side alone. -/
theorem Sent.receiver (h : Sent sink s answer acts s') : s'.receiver = s.receiver := by
  cases h <;> rfl

/-- So does a request. -/
theorem Served.receiver (h : Served sink s r packets report s') : s'.receiver = s.receiver := by
  cases h with
  | written _ _ sent => exact sent.receiver
  | through sent => exact sent.receiver
  | tooLong _ | unsplit _ _ | resized _ | cramped _ => rfl

/-- There is nothing to send, and nothing on its way. -/
structure Vacant (s : PacketStream κ) : Prop where
  /-- No packet waits. -/
  queue : s.sender.queue = []
  /-- None is under way. -/
  ready : s.sender.inFlight = false

/-- A stream is made with nothing to send, and with a fresh receiving side. -/
theorem vacant_ofConfig {link : κ} {c : Config} {role : OfferRole} (h : ofConfig link c role = .ok s) :
    s.Vacant ∧ s.receiver = .fresh := by
  unfold ofConfig at h
  split at h
  · cases h
    exact ⟨⟨rfl, rfl⟩, rfl⟩
  · cases h

/-- Where there is nothing to send nothing is sent. -/
theorem Sent.vacant (h : Sent sink s answer acts s') (vacant : s.Vacant) :
    StreamAct.offers acts = [] ∧ s'.Vacant := by
  cases h with
  | nothing _ => exact ⟨rfl, vacant⟩
  | accepted _ next _ | refused _ next _ =>
    rw [vacant.queue] at next
    cases next

variable (sink)

/-- A vacant stream hands out a packet if it takes a message, and stays vacant otherwise. -/
theorem Vacant.serve (h : s.Vacant) (r : Request) :
    (s.joins r ≠ [] ∧ s.handed sink r ≠ []) ∨
      (s.joins r = [] ∧ s.handed sink r = [] ∧ (s.serve sink r).2.Vacant) := by
  have hoffers := offers_handed sink r s
  have hserved := served_serve sink r s
  generalize s.handed sink r = handed at hoffers ⊢
  have hsilent (hnone : StreamAct.offers (s.serve sink r).1.acts = []) : handed = [] := by
    rw [hnone] at hoffers
    exact List.map_eq_nil_iff.1 hoffers
  generalize s.joins r = packets, (s.serve sink r).1 = report, (s.serve sink r).2 = s' at *
  cases hserved with
  | @written _ _ packets _ _ _ _ split sent =>
    have hjoins := Packet.ne_nil_of_split split
    have hstalled : (s.enqueue packets).Stalled :=
      ⟨h.ready, List.append_ne_nil_of_right_ne_nil _ hjoins⟩
    refine .inl ⟨hjoins, fun hnone => sent.offers_ne_nil sink hstalled ?_⟩
    rw [← hoffers, hnone, List.map_nil]
  | through sent =>
    obtain ⟨hnone, hvacant⟩ := sent.vacant ⟨h.queue, rfl⟩
    refine .inr ⟨rfl, hsilent ?_, hvacant⟩
    rw [StreamAct.offers_append, hnone, offers_complaint, List.append_nil]
  | unsplit _ _ => exact .inr ⟨rfl, hsilent rfl, (List.append_nil _).trans h.queue, h.ready⟩
  | tooLong _ | resized _ | cramped _ => exact .inr ⟨rfl, hsilent rfl, h.queue, h.ready⟩

/-! ## Inputs of all kinds -/

/-- What is handed to the link on an input are packets or our versions. -/
theorem offers_take (i : Input) (s : PacketStream κ) :
    StreamAct.offers (s.take sink i).1 = (s.sentOn sink i).map (fun o => (o.1.toBytes, o.2)) ∨
      s.sentOn sink i = [] ∧
        ∃ answer, StreamAct.offers (s.take sink i).1 = [(VersionOffer.supported.encode, answer)] := by
  cases i with
  | asked r => exact .inl (offers_handed sink r s).symm
  | begun => exact (aside_begin sink s).states.imp id fun h => ⟨rfl, h⟩
  | fed frame => exact (aside_feed sink frame s).states.imp id fun h => ⟨rfl, h⟩

/-- Once versions have been exchanged they have been. -/
theorem exchanged_take (i : Input) (h : s.receiver.exchanged = true) :
    (s.take sink i).2.receiver.exchanged = true := by
  cases i with
  | asked r => exact (congrArg Receiver.exchanged (served_serve sink r s).receiver).trans h
  | begun => exact (aside_begin sink s).stays h
  | fed frame => exact (aside_feed sink frame s).stays h

/-- Versions are exchanged with a frame that states some that ours go with. -/
theorem compatible_of_take {i : Input} (early : s.receiver.exchanged = false)
    (done : (s.take sink i).2.receiver.exchanged = true) :
    ∃ frame offer, i = .fed frame ∧ VersionOffer.decode? frame = some offer ∧
      offer.compatible = true := by
  cases i with
  | asked r =>
    have hkept := congrArg Receiver.exchanged (served_serve sink r s).receiver
    exact absurd (early.symm.trans (hkept.symm.trans done)) Bool.false_ne_true
  | begun => exact (aside_begin sink s).done early done
  | fed frame => exact (aside_feed sink frame s).done early done

/-- A vacant stream sends a packet exactly when it takes a message; until then it stays vacant. -/
theorem Vacant.take (h : s.Vacant) (i : Input) :
    (s.takenOn i ≠ [] ∧ s.sentOn sink i ≠ []) ∨
      (s.takenOn i = [] ∧ s.sentOn sink i = [] ∧ (s.take sink i).2.Vacant) := by
  have hvacant (hsender : (s.take sink i).2.sender = s.sender) : (s.take sink i).2.Vacant :=
    ⟨hsender ▸ h.queue, hsender ▸ h.ready⟩
  cases i with
  | asked r => exact h.serve sink r
  | begun => exact .inr ⟨rfl, rfl, hvacant (aside_begin sink s).sender⟩
  | fed frame => exact .inr ⟨rfl, rfl, hvacant (aside_feed sink frame s).sender⟩

/-! ## Runs -/

/-- Versions are exchanged only if compatible ones were stated. -/
theorem compatible_of_takeAll (is : List Input) (early : s.receiver.exchanged = false)
    (done : (s.takeAll sink is).receiver.exchanged = true) :
    ∃ frame offer, .fed frame ∈ is ∧ VersionOffer.decode? frame = some offer ∧
      offer.compatible = true := by
  induction is generalizing s with
  | nil => exact absurd (early.symm.trans done) Bool.false_ne_true
  | cons i is ih =>
    rcases hnext : (s.take sink i).2.receiver.exchanged with _ | _
    · obtain ⟨frame, offer, hmem, hoffer⟩ := ih hnext done
      exact ⟨frame, offer, List.mem_cons_of_mem i hmem, hoffer⟩
    · obtain ⟨frame, offer, rfl, hoffer⟩ := compatible_of_take sink early hnext
      exact ⟨frame, offer, List.mem_cons_self, hoffer⟩

/-- After the exchange there is nothing to withhold and nothing to wait for. -/
theorem withholds_and_awaits_of_exchanged (is : List Input) (h : s.receiver.exchanged = true) :
    s.Withholds sink is ∧ s.Awaits sink is := by
  induction is generalizing s with
  | nil => exact ⟨trivial, trivial⟩
  | cons i is ih =>
    have hlate (P : Prop) (early : s.receiver.exchanged = false) : P :=
      absurd (early.symm.trans h) Bool.false_ne_true
    obtain ⟨hwithholds, hawaits⟩ := ih (exchanged_take sink i h)
    exact ⟨⟨hlate _, hwithholds⟩, ⟨hlate _, hawaits⟩⟩

/-- From a state with nothing to send, packets are withheld until the exchange exactly if no message is taken
until then, since the first packet of a message is handed over when it is taken. -/
theorem Vacant.withholds_iff (h : s.Vacant) (is : List Input) :
    s.Withholds sink is ↔ s.Awaits sink is := by
  induction is generalizing s with
  | nil => exact Iff.rfl
  | cons i is ih =>
    rcases hexchanged : s.receiver.exchanged with _ | _
    · unfold Withholds Awaits
      rcases h.take sink i with ⟨htaken, hsent⟩ | ⟨htaken, hsent, hvacant⟩
      · exact ⟨fun h => absurd (h.1 hexchanged) hsent, fun h => absurd (h.1 hexchanged) htaken⟩
      · rw [ih hvacant]
        exact and_congr_left fun _ => ⟨fun _ _ => htaken, fun _ _ => hsent⟩
    · obtain ⟨hwithholds, hawaits⟩ := withholds_and_awaits_of_exchanged sink (i :: is) hexchanged
      exact ⟨fun _ => hawaits, fun _ => hwithholds⟩

/-- Whatever happens to a new stream, in either role: it hands nothing to the link but packets and its
versions; versions are exchanged only if compatible ones were stated; and packets are kept back until then
exactly if no message is taken before. -/
theorem withholds_iff_awaits {link : κ} {c : Config} {role : OfferRole}
    (made : ofConfig link c role = .ok s) (is : List Input) :
    (∀ (i : Input) (t : PacketStream κ),
      StreamAct.offers (t.take sink i).1 = (t.sentOn sink i).map (fun o => (o.1.toBytes, o.2)) ∨
        t.sentOn sink i = [] ∧
          ∃ answer, StreamAct.offers (t.take sink i).1 = [(VersionOffer.supported.encode, answer)]) ∧
    ((s.takeAll sink is).receiver.exchanged = true → ∃ frame offer, .fed frame ∈ is ∧
      VersionOffer.decode? frame = some offer ∧ offer.compatible = true) ∧
    (s.Withholds sink is ↔ s.Awaits sink is) := by
  obtain ⟨hvacant, hfresh⟩ := vacant_ofConfig made
  have hearly : s.receiver.exchanged = false := by rw [hfresh]; rfl
  exact ⟨offers_take sink, compatible_of_takeAll sink is hearly, hvacant.withholds_iff sink is⟩

/-! ## A message before the exchange and one after it -/

/-- A stream as it is made by default, with frames that have room for twenty bytes in a packet. -/
def unacquainted : PacketStream Bench.Sink where
  link := ⟨none⟩
  role := .responder
  size := 32
  roomy := by decide
  limit := 65536
  sender := ⟨0, [], false⟩
  receiver := .fresh

/-- The other side states its versions, and then a message is written: its first packet is sent. -/
theorem withholds_after_exchange :
    ofConfig (⟨none⟩ : Bench.Sink) { Config.default with maxWriteSize := 32 } .responder =
      .ok unacquainted ∧
    (unacquainted.takeAll Bench.Sink.frames
      [.fed VersionOffer.supported.encode]).receiver.exchanged = true ∧
    (unacquainted.takeAll Bench.Sink.frames
      [.fed VersionOffer.supported.encode]).sentOn Bench.Sink.frames
        (.asked (.write ⟨none, false, []⟩ .client)) ≠ [] ∧
    unacquainted.Withholds Bench.Sink.frames
      [.fed VersionOffer.supported.encode, .asked (.write ⟨none, false, []⟩ .client)] := by
  have hmade : ofConfig (⟨none⟩ : Bench.Sink) { Config.default with maxWriteSize := 32 } .responder =
      .ok unacquainted := rfl
  have hexchanged : (unacquainted.takeAll Bench.Sink.frames
      [.fed VersionOffer.supported.encode]).receiver.exchanged = true := by decide +kernel
  refine ⟨hmade, hexchanged, by decide +kernel, ?_⟩
  refine (withholds_iff_awaits Bench.Sink.frames hmade _).2.2.2 ⟨fun _ => rfl, fun early => ?_, trivial⟩
  exact absurd (early.symm.trans hexchanged) Bool.false_ne_true

/-- A message that is written before: its first packet is handed to the link at once. -/
theorem not_withholds_before_exchange :
    ofConfig (⟨none⟩ : Bench.Sink) { Config.default with maxWriteSize := 32 } .responder =
      .ok unacquainted ∧
    unacquainted.receiver.exchanged = false ∧
    unacquainted.sentOn Bench.Sink.frames (.asked (.write ⟨none, false, []⟩ .client)) =
      [(⟨0, 1, 4, (Envelope.encode ⟨none, false, []⟩ .client).take 20⟩, .ok ())] ∧
    ¬ unacquainted.Withholds Bench.Sink.frames [.asked (.write ⟨none, false, []⟩ .client)] := by
  have hsent : unacquainted.sentOn Bench.Sink.frames (.asked (.write ⟨none, false, []⟩ .client)) =
      [(⟨0, 1, 4, (Envelope.encode ⟨none, false, []⟩ .client).take 20⟩, .ok ())] := by
    decide +kernel
  refine ⟨rfl, rfl, hsent, fun h => ?_⟩
  have hnone := h.1 rfl
  rw [hsent] at hnone
  cases hnone

end PacketStream

end DevicePairing
