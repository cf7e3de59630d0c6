import DevicePairing.Proofs.Stream.Packet.Width

/-!
# The exchange of versions

A new stream takes every frame for a statement of versions, whatever bytes it is, until one completes the
exchange: the frame states ranges that contain version 2 of both protocols, and the link takes the answer, if
the stream is one that answers. `PacketStream.negotiated_run` says what this comes to in every run. Until then a
frame earns the listener one error and leaves the stream as it was. The link takes the answer of a responder once
in all, and never gets one from an initiator. After that the exchange stays done, and no frame is answered again,
not even one that states versions.

The run may hold more than frames: messages may be written, and versions stated unasked. None of it touches the
exchange, so the proof rests on what one frame does: before the exchange (`fruitless_of_not_completes`,
`opening_of_completes`) and after it (`offers_feed_of_exchanged`).
-/

namespace DevicePairing

/-- The ranges of an offer contain the given versions of the messaging and of the security protocol. -/
def VersionOffer.Covers (messaging security : UInt32) (v : VersionOffer) : Prop :=
  (v.minMessaging ≤ messaging ∧ messaging ≤ v.maxMessaging) ∧
    v.minSecurity ≤ security ∧ security ≤ v.maxSecurity

/-- An offer is compatible exactly if it covers version 2 of both protocols, which is all that this side offers.
-/
theorem VersionOffer.compatible_iff (v : VersionOffer) : v.compatible = true ↔ v.Covers 2 2 := by
  unfold compatible Covers
  simp only [Bool.and_eq_true, and_assoc]
  exact and_congr decide_eq_true_iff (and_congr decide_eq_true_iff
    (and_congr decide_eq_true_iff decide_eq_true_iff))

/-- A frame states versions whose ranges contain version 2 of both protocols. -/
def VersionOffer.Suits (frame : Bytes) : Prop :=
  ∃ offer, decode? frame = some offer ∧ offer.Covers 2 2

namespace PacketStream

variable {κ : Type} (sink : FrameSink κ) {s s' : PacketStream κ}

/-- A frame completes the exchange: it states versions that suit ours, and the link takes the answer to it, if
the stream answers. -/
def Completes (frame : Bytes) (s : PacketStream κ) : Prop :=
  VersionOffer.Suits frame ∧
    (s.role = .responder → (sink.send VersionOffer.supported.encode s.link).1 = .ok ())

/-- What the link takes when the exchange completes. -/
def answer (s : PacketStream κ) : List Bytes :=
  match s.role with
  | .responder => [VersionOffer.supported.encode]
  | .initiator => []

/-- A frame comes to nothing: the listener is told of one error and of no message, the link takes nothing, and
the stream is as it was. -/
structure Fruitless (frame : Bytes) (s : PacketStream κ) : Prop where
  /-- One error is reported. -/
  error : ∃ e, StreamAct.errors (s.feed sink frame).1 = [e]
  /-- No message is delivered. -/
  silent : StreamAct.messages (s.feed sink frame).1 = []
  /-- The link takes nothing. -/
  unanswered : StreamAct.accepted (s.feed sink frame).1 = []
  /-- At most the link has changed, which may have refused an answer. -/
  same : ∃ link, (s.feed sink frame).2 = { s with link }

/-- A frame opens the stream for packets: the link takes the answer that the stream owes, and the exchange counts
as done. -/
structure Opening (frame : Bytes) (s : PacketStream κ) : Prop where
  /-- The link takes the answer. -/
  answered : StreamAct.accepted (s.feed sink frame).1 = s.answer
  /-- Apart from the link, no more than the state of the exchange has changed. -/
  opens : ∃ link, (s.feed sink frame).2 =
    { s with link, receiver := { s.receiver with exchanged := true } }

/-- What the link takes when a frame is fed. -/
def answeredOn : Input → PacketStream κ → List Bytes
  | .fed frame, s => StreamAct.accepted (s.feed sink frame).1
  | _, _ => []

/-- What the link takes over a run when frames are fed. -/
def answers : List Input → PacketStream κ → List Bytes
  | [], _ => []
  | i :: is, s => s.answeredOn sink i ++ answers is (s.take sink i).2

/-! ## One frame -/

variable {frame : Bytes}

/-- A frame that does not suit is refused, and the stream is as it was. -/
theorem exchange_of_not_suits (h : ¬ VersionOffer.Suits frame) :
    ∃ e, s.exchange sink frame = (.error e, [], s) := by
  unfold exchange
  rcases hdecode : VersionOffer.decode? frame with _ | offer
  · exact ⟨_, rfl⟩
  · have hrefused : ¬ offer.compatible = true := fun compatible =>
      h ⟨offer, hdecode, offer.compatible_iff.1 compatible⟩
    dsimp only
    rw [if_neg hrefused]
    exact ⟨_, rfl⟩

/-- Who has begun the exchange takes a suitable frame for the answer, and says nothing. -/
theorem exchange_of_initiator (h : VersionOffer.Suits frame) (hrole : s.role = .initiator) :
    s.exchange sink frame =
      (.ok (), [], { s with receiver := { s.receiver with exchanged := true } }) := by
  obtain ⟨offer, hdecode, covers⟩ := h
  unfold exchange
  rewrite [hdecode]
  dsimp only
  rewrite [if_pos (offer.compatible_iff.2 covers), hrole]
  rfl

/-- For a responder, stating its own versions decides. -/
theorem exchange_of_responder (h : VersionOffer.Suits frame) (hrole : s.role = .responder)
    {outcome : Except StreamError Unit} {acts : List StreamAct} (hbegin : s.begin sink = (outcome, acts, s')) :
    s.exchange sink frame = (outcome, acts, { s' with
      receiver := { s'.receiver with exchanged := outcome.isOk || s'.receiver.exchanged } }) := by
  obtain ⟨offer, hdecode, covers⟩ := h
  unfold exchange
  rewrite [hdecode]
  dsimp only
  rewrite [if_pos (offer.compatible_iff.2 covers), hbegin]
  obtain ⟨_, role, _, _, _, _, _⟩ := s
  cases hrole
  cases outcome <;> rfl

/-- Who has not begun it answers, and with the answer taken the exchange is done. -/
theorem exchange_of_taken (h : VersionOffer.Suits frame) (hrole : s.role = .responder) {link : κ}
    (taken : sink.send VersionOffer.supported.encode s.link = (.ok (), link)) :
    s.exchange sink frame = (.ok (), [.handed VersionOffer.supported.encode (.ok ())],
      { s with link, receiver := { s.receiver with exchanged := true } }) := by
  have hbegin : s.begin sink = (.ok (), [.handed VersionOffer.supported.encode (.ok ())], { s with link }) := by
    unfold begin hand
    rewrite [taken]
    rfl
  exact exchange_of_responder sink h hrole hbegin

/-- If the link does not take the answer the exchange is not done. -/
theorem exchange_of_untaken (h : VersionOffer.Suits frame) (hrole : s.role = .responder) {e : LinkError}
    {link : κ} (untaken : sink.send VersionOffer.supported.encode s.link = (.error e, link)) :
    s.exchange sink frame = (.error (.link e), [.handed VersionOffer.supported.encode (.error e)],
      { s with link }) := by
  have hbegin : s.begin sink = (.error (.link e), [.handed VersionOffer.supported.encode (.error e)],
      { s with link }) := by
    unfold begin hand
    rewrite [untaken]
    rfl
  exact exchange_of_responder sink h hrole hbegin

/-- A frame that the exchange refuses is reported. -/
theorem feed_of_refused (early : s.receiver.exchanged = false) {e : StreamError} {acts : List StreamAct}
    (h : s.exchange sink frame = (.error e, acts, s')) :
    s.feed sink frame = (acts ++ [.reported e], s') := by
  unfold feed
  rewrite [if_neg (Bool.eq_false_iff.1 early), h]
  rfl

/-- Before the exchange a frame that agrees is dealt with as the exchange says, and the listener is told
nothing. -/
theorem feed_of_agreed (early : s.receiver.exchanged = false) {acts : List StreamAct}
    (h : s.exchange sink frame = (.ok (), acts, s')) : s.feed sink frame = (acts, s') := by
  unfold feed
  rewrite [if_neg (Bool.eq_false_iff.1 early), h]
  rfl

/-- A frame that leaves all but the link as it was, and of which the listener is told one error, comes to
nothing. -/
theorem fruitless_of_feed {e : StreamError} {acts : List StreamAct} {link : κ}
    (h : s.feed sink frame = (acts ++ [.reported e], { s with link }))
    (hacts : acts = [] ∨ ∃ cause, acts = [.handed VersionOffer.supported.encode (.error cause)]) :
    s.Fruitless sink frame := by
  refine ⟨⟨e, ?_⟩, ?_, ?_, link, congrArg Prod.snd h⟩ <;> rewrite [h] <;>
    obtain rfl | ⟨cause, rfl⟩ := hacts <;> rfl

/-- Before the exchange, a frame that does not complete it comes to nothing. -/
theorem fruitless_of_not_completes (early : s.receiver.exchanged = false)
    (h : ¬ s.Completes sink frame) : s.Fruitless sink frame := by
  by_cases suits : VersionOffer.Suits frame
  · -- the versions are good, so what is missing is the answer of a responder
    have hrole : s.role = .responder := by
      rcases hrole : s.role with _ | _
      · rfl
      · exact absurd ⟨suits, fun hresponder => nomatch hrole.symm.trans hresponder⟩ h
    rcases hsend : sink.send VersionOffer.supported.encode s.link with ⟨e | _, link⟩
    · have hexchange := exchange_of_untaken sink suits hrole hsend
      exact fruitless_of_feed sink (feed_of_refused sink early hexchange) (.inr ⟨e, rfl⟩)
    · exact absurd ⟨suits, fun _ => congrArg Prod.fst hsend⟩ h
  · obtain ⟨e, hexchange⟩ := exchange_of_not_suits sink (s := s) suits
    have hfeed : s.feed sink frame = ([] ++ [.reported e], { s with link := s.link }) :=
      feed_of_refused sink early hexchange
    exact fruitless_of_feed sink hfeed (.inl rfl)

/-- Before the exchange, a frame that completes it opens the stream. -/
theorem opening_of_completes (early : s.receiver.exchanged = false) (h : s.Completes sink frame) :
    s.Opening sink frame := by
  obtain ⟨suits, taken⟩ := h
  rcases hrole : s.role with _ | _
  · rcases hsend : sink.send VersionOffer.supported.encode s.link with ⟨e | _, link⟩
    · have hok := taken hrole
      rw [hsend] at hok
      cases hok
    · have hfeed := feed_of_agreed sink early (exchange_of_taken sink suits hrole hsend)
      constructor <;> rewrite [hfeed]
      · unfold answer
        rewrite [hrole]
        rfl
      · exact ⟨link, rfl⟩
  · have hfeed := feed_of_agreed sink early (exchange_of_initiator sink suits hrole)
    constructor <;> rewrite [hfeed]
    · unfold answer
      rewrite [hrole]
      rfl
    · exact ⟨s.link, rfl⟩

/-- Once the exchange is done, nothing is handed to the link when a frame comes. -/
theorem offers_feed_of_exchanged (late : s.receiver.exchanged = true) (frame : Bytes) :
    StreamAct.offers (s.feed sink frame).1 = [] := by
  rcases offers_feed sink frame s with ⟨⟨early, _⟩, _⟩ | ⟨_, hoffers⟩
  · exact absurd (early.symm.trans late) Bool.false_ne_true
  · exact hoffers

/-- An initiator hands nothing to the link when a frame comes. -/
theorem offers_feed_of_initiator (hrole : s.role = .initiator) (frame : Bytes) :
    StreamAct.offers (s.feed sink frame).1 = [] := by
  rcases offers_feed sink frame s with ⟨⟨_, hresponder, _⟩, _⟩ | ⟨_, hoffers⟩
  · rw [hrole] at hresponder
    cases hresponder
  · exact hoffers

/-- After the exchange nothing is answered any more. -/
theorem answered_of_exchanged (late : s.receiver.exchanged = true) (i : Input) :
    s.answeredOn sink i = [] := by
  cases i with
  | asked _ | begun => rfl
  | fed frame =>
    have hnone := offers_feed_of_exchanged sink late frame
    show StreamAct.accepted (s.feed sink frame).1 = []
    rw [StreamAct.accepted_of_ok (by simp [hnone]), hnone]
    rfl

/-! ## The part a stream plays -/

/-- An attempt to send has no part in who begins. -/
theorem Sent.role {answer : Except StreamError Unit} {acts : List StreamAct}
    (h : Sent sink s answer acts s') : s'.role = s.role := by
  cases h <;> rfl

/-- Nor has a request. -/
theorem Served.role {r : Request} {packets : List Packet} {report : Report}
    (h : Served sink s r packets report s') : s'.role = s.role := by
  cases h with
  | written _ _ sent => exact sent.role
  | through sent => exact sent.role
  | tooLong _ | unsplit _ _ | resized _ | cramped _ => rfl

/-- Nor has a frame that comes in. -/
theorem role_feed (frame : Bytes) (s : PacketStream κ) : (s.feed sink frame).2.role = s.role := by
  rcases hexchanged : s.receiver.exchanged with _ | _
  · by_cases completes : s.Completes sink frame
    · obtain ⟨link, hstate⟩ := (opening_of_completes sink hexchanged completes).opens
      rw [hstate]
    · obtain ⟨link, hstate⟩ := (fruitless_of_not_completes sink hexchanged completes).same
      rw [hstate]
  · unfold feed
    rw [if_pos hexchanged]
    rcases Packet.parse frame with e | p <;> rfl

/-- Nor has any input. -/
theorem role_take (i : Input) (s : PacketStream κ) : (s.take sink i).2.role = s.role := by
  cases i with
  | asked r => exact (served_serve sink r s).role
  | begun => rfl
  | fed frame => exact role_feed sink frame s

/-- So the stream has the same role after any inputs. -/
theorem role_takeAll (is : List Input) (s : PacketStream κ) : (s.takeAll sink is).role = s.role := by
  induction is generalizing s with
  | nil => rfl
  | cons i is ih => exact (ih _).trans (role_take sink i s)

/-! ## Runs -/

/-- Before the exchange, an input that is a frame may complete it; any other input leaves it undone. -/
theorem early_take (early : s.receiver.exchanged = false) (i : Input) :
    ((∃ frame, i = .fed frame ∧ s.Completes sink frame) ∧
        (s.take sink i).2.receiver.exchanged = true ∧ s.answeredOn sink i = s.answer) ∨
      ((∀ frame, i = .fed frame → ¬ s.Completes sink frame) ∧
        (s.take sink i).2.receiver.exchanged = false ∧ s.answeredOn sink i = []) := by
  cases i with
  | asked r =>
    refine .inr ⟨nofun, ?_, rfl⟩
    exact (congrArg Receiver.exchanged (served_serve sink r s).receiver).trans early
  | begun => exact .inr ⟨nofun, early, rfl⟩
  | fed frame =>
    by_cases completes : s.Completes sink frame
    · obtain ⟨hanswered, link, hstate⟩ := opening_of_completes sink early completes
      refine .inl ⟨⟨frame, rfl, completes⟩, ?_, hanswered⟩
      show (s.feed sink frame).2.receiver.exchanged = true
      rw [hstate]
    · obtain ⟨_, _, hunanswered, link, hstate⟩ := fruitless_of_not_completes sink early completes
      refine .inr ⟨fun _ h => Input.fed.inj h ▸ completes, ?_, hunanswered⟩
      show (s.feed sink frame).2.receiver.exchanged = false
      rw [hstate]
      exact early

/-- Versions that were exchanged stay so over any inputs. -/
theorem exchanged_takeAll_of_exchanged (late : s.receiver.exchanged = true) (is : List Input) :
    (s.takeAll sink is).receiver.exchanged = true := by
  induction is generalizing s with
  | nil => exact late
  | cons i is ih => exact ih (exchanged_take sink i late)

/-- So nothing is answered over them. -/
theorem answers_of_exchanged (late : s.receiver.exchanged = true) (is : List Input) :
    s.answers sink is = [] := by
  induction is generalizing s with
  | nil => rfl
  | cons i is ih =>
    unfold answers
    rw [answered_of_exchanged sink late i, ih (exchanged_take sink i late), List.append_nil]

/-- Over a run, the link takes an answer if the exchange completes, and otherwise none. -/
theorem answers_run (early : s.receiver.exchanged = false) (is : List Input) :
    s.answers sink is = if (s.takeAll sink is).receiver.exchanged then s.answer else [] := by
  induction is generalizing s with
  | nil =>
    rw [takeAll, early]
    rfl
  | cons i is ih =>
    rw [answers, takeAll]
    obtain ⟨_, hdone, hanswered⟩ | ⟨_, hundone, hunanswered⟩ := early_take sink early i
    · rw [hanswered, answers_of_exchanged sink hdone, List.append_nil,
        exchanged_takeAll_of_exchanged sink hdone, if_pos rfl]
    · have hanswer : (s.take sink i).2.answer = s.answer := by
        unfold answer
        rw [role_take]
      rw [hunanswered, List.nil_append, ih hundone, hanswer]

/-- The exchange is done after a run exactly if a frame of the run completed it. -/
theorem exchanged_iff_completed (early : s.receiver.exchanged = false) (is : List Input) :
    (s.takeAll sink is).receiver.exchanged = true ↔
      ∃ before frame after, is = before ++ .fed frame :: after ∧
        (s.takeAll sink before).Completes sink frame := by
  constructor
  · intro hdone
    induction is generalizing s with
    | nil => exact absurd (early.symm.trans hdone) Bool.false_ne_true
    | cons i is ih =>
      obtain ⟨⟨frame, rfl, completes⟩, _⟩ | ⟨_, hundone, _⟩ := early_take sink early i
      · exact ⟨[], frame, is, rfl, completes⟩
      · obtain ⟨before, frame, after, rfl, completes⟩ := ih hundone hdone
        exact ⟨i :: before, frame, after, rfl, completes⟩
  · rintro ⟨before, frame, after, rfl, completes⟩
    rw [takeAll_append]
    refine exchanged_takeAll_of_exchanged sink ?_ after
    show ((s.takeAll sink before).feed sink frame).2.receiver.exchanged = true
    rcases hexchanged : (s.takeAll sink before).receiver.exchanged with _ | _
    · obtain ⟨_, link, hstate⟩ := opening_of_completes sink hexchanged completes
      rw [hstate]
    · exact exchanged_take sink (.fed frame) hexchanged

/-- How the exchange of versions has gone when a new stream has taken some inputs. -/
structure Negotiated (is : List Input) (s : PacketStream κ) : Prop where
  /-- The exchange is done exactly if a frame completed it. -/
  done_iff : (s.takeAll sink is).receiver.exchanged = true ↔
    ∃ before frame after, is = before ++ .fed frame :: after ∧
      (s.takeAll sink before).Completes sink frame
  /-- Until it is done, a frame that does not complete it comes to nothing. -/
  fruitless : (s.takeAll sink is).receiver.exchanged = false → ∀ frame,
    ¬ (s.takeAll sink is).Completes sink frame → (s.takeAll sink is).Fruitless sink frame
  /-- When it is done, the link has taken one answer of a responder. -/
  answered : s.role = .responder → (s.takeAll sink is).receiver.exchanged = true →
    s.answers sink is = [VersionOffer.supported.encode]
  /-- Until it is done, the link has taken none. -/
  unanswered : (s.takeAll sink is).receiver.exchanged = false → s.answers sink is = []
  /-- An initiator offers the link no answer to any frame. -/
  mute : s.role = .initiator → ∀ frame,
    StreamAct.offers ((s.takeAll sink is).feed sink frame).1 = []
  /-- Once it is done, it stays done whatever comes, and no frame is answered. -/
  lasts : (s.takeAll sink is).receiver.exchanged = true → ∀ is',
    (s.takeAll sink (is ++ is')).receiver.exchanged = true ∧
      ∀ frame, StreamAct.offers ((s.takeAll sink (is ++ is')).feed sink frame).1 = []

/-- Whatever happens to a new stream, in either role and over any link: frames come to nothing until one completes
the exchange of versions; the link takes one answer of a responder and none of an initiator; and the exchange is
never undone or repeated. -/
theorem negotiated_run {link : κ} {c : Config} {role : OfferRole} (made : ofConfig link c role = .ok s)
    (is : List Input) : s.Negotiated sink is := by
  have hearly : s.receiver.exchanged = false := by
    rw [(vacant_ofConfig made).2]
    rfl
  have hanswers := answers_run sink hearly is
  have hrole := role_takeAll sink is s
  constructor
  case done_iff => exact exchanged_iff_completed sink hearly is
  case fruitless => exact fun early frame => fruitless_of_not_completes sink early
  case answered =>
    intro hresponder hdone
    rw [hanswers, if_pos hdone, answer, hresponder]
  case unanswered =>
    intro hundone
    rw [hanswers, hundone]
    rfl
  case mute => exact fun hinitiator => offers_feed_of_initiator sink (hrole.trans hinitiator)
  case lasts =>
    intro hdone is'
    have hlater := exchanged_takeAll_of_exchanged sink hdone is'
    rw [← takeAll_append] at hlater
    exact ⟨hlater, offers_feed_of_exchanged sink hlater⟩

/-- The link refuses the first answer of a responder; the other side sends three bytes, and states its versions
again twice. The second answer is taken, and there is no third. -/
theorem negotiated_at_second_attempt :
    ofConfig true { Config.default with maxWriteSize := 24, maxMessageSize := 200 } .responder =
      .ok faltering ∧
    (faltering.takeAll falters
      [.fed VersionOffer.supported.encode, .fed [1, 2, 3]]).receiver.exchanged = false ∧
    (faltering.takeAll falters [.fed VersionOffer.supported.encode, .fed [1, 2, 3],
      .fed VersionOffer.supported.encode]).receiver.exchanged = true ∧
    faltering.Negotiated falters [.fed VersionOffer.supported.encode, .fed [1, 2, 3],
      .fed VersionOffer.supported.encode, .fed VersionOffer.supported.encode] :=
  ⟨rfl, by decide +kernel, by decide +kernel,
    negotiated_run (c := { Config.default with maxWriteSize := 24, maxMessageSize := 200 }) falters rfl _⟩

end PacketStream

end DevicePairing
