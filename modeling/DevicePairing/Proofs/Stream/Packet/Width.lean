import DevicePairing.Proofs.Stream.Packet.Early

/-!
# The size of frames

A message is cut into packets of the size that frames have when it is written, and the packets leave one by
one. If the size is lowered in between, those that wait keep the size they were cut to. The statement of
versions is a frame of ninety-one bytes, whatever the size.

`PacketStream.fits_iff_accommodates` says when all frames of a new stream keep to the size that holds at the
moment they are handed to the link, however the link answers, and also when what waits at some point of the run
is sent from there on: exactly if versions are stated only while there is room for them, and the size is never
lowered below that of a packet that waits. `PacketStream.Snug` carries the proof: the packets that wait fit.
-/

namespace DevicePairing

/-- Our versions take a frame of ninety-one bytes. -/
theorem VersionOffer.length_encode_supported : VersionOffer.supported.encode.length = 91 := by
  decide +kernel

namespace PacketStream

variable {κ : Type} (sink : FrameSink κ) {s s' : PacketStream κ} {r : Request} {packets : List Packet}
  {report : Report} {answer : Except StreamError Unit} {acts : List StreamAct}

/-! ## Frames that fit -/

/-- Every frame that is handed to the link has at most the size that holds at that moment. -/
def Fits : List Input → PacketStream κ → Prop
  | [], _ => True
  | i :: is, s =>
    (∀ o ∈ StreamAct.offers (s.take sink i).1, o.1.length ≤ s.size) ∧ Fits is (s.take sink i).2

/-- The packets that wait have at most the size of frames. -/
def Snug (s : PacketStream κ) : Prop := ∀ p ∈ s.sender.queue, p.toBytes.length ≤ s.size

/-- Whether the stream states its versions on an input: it is to do so, or it answers those of the other
side. -/
def StatesVersions : Input → PacketStream κ → Prop
  | .asked _, _ => False
  | .begun, _ => True
  | .fed frame, s => s.receiver.exchanged = false ∧ s.role = .responder ∧
      ∃ offer, VersionOffer.decode? frame = some offer ∧ offer.compatible = true

/-- Versions are stated only while frames have room for them, and when frames are given another size the
packets that wait fit it. -/
def Accommodates : List Input → PacketStream κ → Prop
  | [], _ => True
  | i :: is, s =>
    (s.StatesVersions i → VersionOffer.supported.encode.length ≤ s.size) ∧
      (∀ size, i = .asked (.resize size) → (s.take sink i).2.Snug) ∧ Accommodates is (s.take sink i).2

/-! ## What an input hands over -/

/-- To tell the listener of a packet is not to hand anything over. -/
theorem offers_told (outcome : Except StreamError Progress) : StreamAct.offers (told outcome) = [] := by
  rcases outcome with e | _ | _ | data
  · rfl
  · rfl
  · rfl
  · show StreamAct.offers [.ofEnvelope data] = []
    unfold StreamAct.ofEnvelope
    split <;> rfl

/-- With a frame, the versions are handed over if they are stated, and nothing else. -/
theorem offers_feed (frame : Bytes) (s : PacketStream κ) :
    (s.StatesVersions (.fed frame) ∧
      ∃ answer, StreamAct.offers (s.feed sink frame).1 = [(VersionOffer.supported.encode, answer)]) ∨
    (¬ s.StatesVersions (.fed frame) ∧ StreamAct.offers (s.feed sink frame).1 = []) := by
  unfold feed
  by_cases hexchanged : s.receiver.exchanged = true
  · rw [if_pos hexchanged]
    refine .inr ⟨fun h => absurd (h.1.symm.trans hexchanged) Bool.false_ne_true, ?_⟩
    rcases Packet.parse frame with e | p
    · rfl
    · exact offers_told _
  rw [if_neg hexchanged]
  unfold exchange
  rcases hdecode : VersionOffer.decode? frame with _ | offer
  · refine .inr ⟨fun ⟨_, _, offer, hoffer, _⟩ => ?_, rfl⟩
    rw [hdecode] at hoffer
    cases hoffer
  dsimp only
  by_cases compatible : offer.compatible = true
  · rw [if_pos compatible]
    rcases hrole : s.role with _ | _
    · refine .inl ⟨⟨Bool.eq_false_iff.2 hexchanged, hrole, offer, hdecode, compatible⟩, ?_⟩
      unfold begin hand
      rcases sink.send VersionOffer.supported.encode s.link with ⟨_ | _, link⟩ <;> exact ⟨_, rfl⟩
    · refine .inr ⟨fun ⟨_, hresponder, _⟩ => ?_, rfl⟩
      rw [hrole] at hresponder
      cases hresponder
  · rw [if_neg compatible]
    refine .inr ⟨fun ⟨_, _, offer', hoffer, hcompatible⟩ => compatible ?_, rfl⟩
    rw [hdecode] at hoffer
    cases hoffer
    exact hcompatible

variable {sink}

/-- An attempt to send does not change the size of frames. -/
theorem Sent.size (h : Sent sink s answer acts s') : s'.size = s.size := by
  cases h <;> rfl

/-- Nor does any request but the one for another size. -/
theorem Served.size (h : Served sink s r packets report s') (other : ∀ size, r ≠ .resize size) :
    s'.size = s.size := by
  cases h with
  | written _ _ sent => exact sent.size
  | through sent => exact sent.size
  | tooLong _ | unsplit _ _ => rfl
  | resized _ | cramped _ => exact absurd rfl (other _)

variable (sink)

/-- The packets that join the queue fit the frames of that moment. -/
theorem length_le_of_mem_joins {p : Packet} (hp : p ∈ s.joins r) : p.toBytes.length ≤ s.size := by
  unfold joins at hp
  split at hp
  · split at hp
    · cases hp
    · split at hp
      · next split => exact Packet.length_le_of_split split hp
      · cases hp
  · cases hp

/-- A stream whose waiting packets fit hands over frames that fit, if versions are stated only where there is
room. -/
theorem Snug.fits (h : s.Snug) {i : Input}
    (room : s.StatesVersions i → VersionOffer.supported.encode.length ≤ s.size) :
    ∀ o ∈ StreamAct.offers (s.take sink i).1, o.1.length ≤ s.size := by
  have hversions {answer : Except LinkError Unit} (states : s.StatesVersions i) :
      ∀ o ∈ [(VersionOffer.supported.encode, answer)], o.1.length ≤ s.size :=
    List.forall_mem_singleton.2 (room states)
  cases i with
  | asked r =>
    show ∀ o ∈ StreamAct.offers (s.serve sink r).1.acts, _
    rcases handed_cases sink r s with ⟨_, hoffers, _⟩ | ⟨p, answer, _, hoffers, hqueue, _⟩
    · rw [hoffers]
      exact List.forall_mem_nil _
    · rw [hoffers]
      have hp : p ∈ s.sender.queue ++ s.joins r := hqueue ▸ List.mem_cons_self
      exact List.forall_mem_singleton.2
        ((List.mem_append.1 hp).elim (h p) length_le_of_mem_joins)
  | begun => exact hversions trivial
  | fed frame =>
    show ∀ o ∈ StreamAct.offers (s.feed sink frame).1, _
    rcases offers_feed sink frame s with ⟨states, _, hoffers⟩ | ⟨_, hoffers⟩
    · rw [hoffers]
      exact hversions states
    · rw [hoffers]
      exact List.forall_mem_nil _

/-- No frame that comes in changes the size of those that go out. -/
theorem size_feed (frame : Bytes) (s : PacketStream κ) : (s.feed sink frame).2.size = s.size := by
  unfold feed
  by_cases hexchanged : s.receiver.exchanged = true
  · rw [if_pos hexchanged]
    rcases Packet.parse frame with e | p <;> rfl
  · rw [if_neg hexchanged]
    have h := exchanged_exchange sink frame s
    generalize s.exchange sink frame = result at h
    obtain ⟨answer, acts, s'⟩ := result
    cases h <;> rfl

/-- The packets that wait keep fitting, if they do when frames are given another size. -/
theorem Snug.take (h : s.Snug) {i : Input}
    (resized : ∀ size, i = .asked (.resize size) → (s.take sink i).2.Snug) :
    (s.take sink i).2.Snug := by
  cases i with
  | asked r =>
    by_cases other : ∀ size, r ≠ .resize size
    · intro p hp
      rw [show (s.take sink (.asked r)).2.size = s.size from (served_serve sink r s).size other]
      have hwaited : p ∈ s.sender.queue ++ s.joins r := by
        rw [← queue_handed sink r s]
        exact List.mem_append_right _ hp
      exact (List.mem_append.1 hwaited).elim (h p) length_le_of_mem_joins
    · obtain ⟨size, hsize⟩ := not_forall_not.1 other
      exact resized size (congrArg Input.asked hsize)
  | begun => exact h
  | fed frame =>
    intro p hp
    rw [show (s.take sink (.fed frame)).2.size = s.size from size_feed sink frame s]
    rw [show (s.take sink (.fed frame)).2.sender = s.sender from (aside_feed sink frame s).sender] at hp
    exact h p hp

/-! ## Runs -/

/-- If the packets that wait fit, and all inputs accommodate them, whatever is handed over fits. -/
theorem Snug.fits_of_accommodates (h : s.Snug) {is : List Input} (accommodates : s.Accommodates sink is) :
    s.Fits sink is := by
  induction is generalizing s with
  | nil => trivial
  | cons i is ih =>
    obtain ⟨room, resized, hrest⟩ := accommodates
    exact ⟨h.fits sink room, ih (h.take sink resized) hrest⟩

/-- A completion hands over the packet in front, whatever the link answers. -/
theorem offers_completed {p : Packet} {queue : List Packet} (waits : s.sender.queue = p :: queue) :
    (∃ answer, StreamAct.offers (s.serve sink .completed).1.acts = [(p.toBytes, answer)]) ∧
      (s.serve sink .completed).2.sender.queue = queue := by
  have hserved := served_serve sink .completed s
  have hnonempty : StreamAct.offers (s.serve sink .completed).1.acts ≠ [] := by
    generalize s.joins .completed = packets, (s.serve sink .completed).1 = report,
      (s.serve sink .completed).2 = s' at hserved
    cases hserved with
    | through sent =>
      rw [StreamAct.offers_append, offers_complaint, List.append_nil]
      exact sent.offers_ne_nil sink ⟨rfl, waits ▸ List.cons_ne_nil p queue⟩
  rcases handed_cases sink .completed s with ⟨_, hnone, _⟩ | ⟨q, answer, _, hoffers, hqueue, _⟩
  · exact absurd hnone hnonempty
  · rw [waits, show s.joins .completed = [] from rfl, List.append_nil] at hqueue
    obtain ⟨rfl, hrest⟩ := List.cons.inj hqueue
    exact ⟨⟨answer, hoffers⟩, hrest.symm⟩

/-- If what waits fits when it is sent without anything happening in between, it fits now. -/
theorem snug_of_fits_completed
    (h : ∀ n, s.Fits sink (List.replicate n (.asked .completed))) : s.Snug := by
  induction hqueue : s.sender.queue generalizing s with
  | nil =>
    unfold Snug
    rw [hqueue]
    exact List.forall_mem_nil _
  | cons p queue ih =>
    obtain ⟨⟨answer, hoffers⟩, hrest⟩ := offers_completed sink hqueue
    have hsize : (s.serve sink .completed).2.size = s.size :=
      (served_serve sink .completed s).size fun _ => Request.noConfusion
    have hnext : (s.serve sink .completed).2.Snug := ih (fun n => (h (n + 1)).2) hrest
    have hfront : ∀ o ∈ StreamAct.offers (s.serve sink .completed).1.acts, o.1.length ≤ s.size := (h 1).1
    rw [hoffers] at hfront
    unfold Snug at hnext ⊢
    rw [hrest, hsize] at hnext
    rw [hqueue]
    exact List.forall_mem_cons.2 ⟨hfront _ List.mem_cons_self, hnext⟩

/-- Completions change no size and state no versions. -/
theorem accommodates_completed (n : Nat) (s : PacketStream κ) :
    s.Accommodates sink (List.replicate n (.asked .completed)) := by
  induction n generalizing s with
  | zero => trivial
  | succ n ih =>
    exact ⟨fun states => states.elim, nofun, ih _⟩

/-- Inputs accommodate in two parts, if both do from the state they find. -/
theorem accommodates_append {is is' : List Input} :
    s.Accommodates sink (is ++ is') ↔
      s.Accommodates sink is ∧ (s.takeAll sink is).Accommodates sink is' := by
  induction is generalizing s with
  | nil => exact (and_iff_right trivial).symm
  | cons i is ih =>
    rw [List.cons_append, Accommodates, Accommodates, ih, and_assoc, and_assoc, takeAll]

/-- If everything fits, even when the queue is emptied after any of the inputs, the inputs accommodate it. -/
theorem accommodates_of_fits {is : List Input}
    (h : ∀ is', is' <+: is → ∀ n, s.Fits sink (is' ++ List.replicate n (.asked .completed))) :
    s.Accommodates sink is := by
  induction is generalizing s with
  | nil => trivial
  | cons i is ih =>
    have hnow := h [i] (List.cons_prefix_cons.2 ⟨rfl, List.nil_prefix⟩)
    refine ⟨fun states => ?_, fun _ _ => snug_of_fits_completed sink fun n => (hnow n).2, ?_⟩
    · have hfits := (hnow 0).1
      cases i with
      | asked r => exact states.elim
      | begun => exact hfits _ List.mem_cons_self
      | fed frame =>
        rcases offers_feed sink frame s with ⟨_, answer, hoffers⟩ | ⟨silent, _⟩
        · have hmem : (VersionOffer.supported.encode, answer) ∈
              StreamAct.offers (s.take sink (.fed frame)).1 := hoffers ▸ List.mem_cons_self
          exact hfits _ hmem
        · exact absurd states silent
    · exact ih fun is' hprefix n => (h (i :: is') (List.cons_prefix_cons.2 ⟨rfl, hprefix⟩) n).2

/-- Whatever happens to a new stream and whatever the link answers: every frame that is handed over fits, also
if what waits at some point is sent from there on, exactly if versions are stated only while frames have room
for them, and frames are never given a size that is too small for a packet that waits. -/
theorem fits_iff_accommodates {link : κ} {c : Config} {role : OfferRole}
    (made : ofConfig link c role = .ok s) (is : List Input) :
    (∀ is', is' <+: is → ∀ n, s.Fits sink (is' ++ List.replicate n (.asked .completed))) ↔
      s.Accommodates sink is := by
  refine ⟨accommodates_of_fits sink, fun accommodates is' hprefix n => ?_⟩
  obtain ⟨rest, rfl⟩ := hprefix
  have hsnug : s.Snug := fun p hp => by
    rw [(vacant_ofConfig made).1.queue] at hp
    cases hp
  have hbefore := ((accommodates_append sink).1 accommodates).1
  exact hsnug.fits_of_accommodates sink
    ((accommodates_append sink).2 ⟨hbefore, accommodates_completed sink n _⟩)

/-! ## Frames of sixty bytes -/

/-- A stream as it is made for frames of sixty bytes. -/
def narrow : PacketStream Bench.Sink where
  link := ⟨none⟩
  role := .initiator
  size := 60
  roomy := by decide
  limit := 65536
  sender := ⟨0, [], false⟩
  receiver := .fresh

/-- A message of two packets is written; versions are stated when frames have a hundred bytes, while the second
packet still waits. -/
theorem fits_after_widening :
    ofConfig (⟨none⟩ : Bench.Sink) { Config.default with maxWriteSize := 60 } .initiator = .ok narrow ∧
    (narrow.take Bench.Sink.frames (.asked (.write ⟨none, false, []⟩ .client))).2.sender.queue.length = 1 ∧
    narrow.Fits Bench.Sink.frames
      [.asked (.write ⟨none, false, []⟩ .client), .asked (.resize 100), .begun, .asked .completed] := by
  have hmade : ofConfig (⟨none⟩ : Bench.Sink) { Config.default with maxWriteSize := 60 } .initiator =
      .ok narrow := rfl
  have hversions : VersionOffer.supported.encode.length ≤ 100 := by
    rw [VersionOffer.length_encode_supported]
    decide
  have hsnug : (narrow.takeAll Bench.Sink.frames
      [.asked (.write ⟨none, false, []⟩ .client), .asked (.resize 100)]).Snug := by
    unfold Snug
    decide +kernel
  have haccommodates : narrow.Accommodates Bench.Sink.frames
      [.asked (.write ⟨none, false, []⟩ .client), .asked (.resize 100), .begun] :=
    ⟨fun states => states.elim, nofun, fun states => states.elim, fun _ _ => hsnug, fun _ => hversions,
      nofun, trivial⟩
  exact ⟨hmade, by decide +kernel,
    (fits_iff_accommodates Bench.Sink.frames hmade _).2 haccommodates _ (List.prefix_refl _) 1⟩

/-- The statement of versions does not fit, and neither does a packet that was cut before frames were given
thirteen bytes. -/
theorem not_fits_when_narrow :
    ofConfig (⟨none⟩ : Bench.Sink) { Config.default with maxWriteSize := 60 } .initiator = .ok narrow ∧
    ¬ narrow.Fits Bench.Sink.frames [.begun] ∧
    ¬ narrow.Fits Bench.Sink.frames
      [.asked (.write ⟨none, false, []⟩ .client), .asked (.resize 13), .asked .completed] := by
  refine ⟨rfl, fun h => ?_, fun h => ?_⟩
  · have hlength : VersionOffer.supported.encode.length ≤ 60 := h.1 _ List.mem_cons_self
    rw [VersionOffer.length_encode_supported] at hlength
    exact absurd hlength (by decide)
  · have hlast := h.2.2.1
    revert hlast
    decide +kernel

end PacketStream

end DevicePairing
