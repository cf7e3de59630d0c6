import DevicePairing.Proofs.Channel.Success
import DevicePairing.Proofs.KeyExchange.Honest
import DevicePairing.Proofs.Pairing.Companion
import DevicePairing.Proofs.Stream.Takes

/-!
# The key exchange between host and companion

A channel that is `Ready` has told its engine nothing yet. From there the two frames of the companion and
the one answer of the host lead both to the same agreement, whether the devices meet for the first time or
again (`exchange_ready`). The two cases differ only in what the responder waits for next and in whether a
code is shown.
-/

namespace DevicePairing.Pairing

variable {τ : Type} {S : Suite} {stream : MessageStream τ} {good : τ → Prop}
  {c : Channel Responder MemoryStore τ} {reconnecting : Bool}

/-- What a channel between honest devices is for: an association whose code can be shown, or a
reconnection whose peer has answered the challenge. -/
def Purpose (c : Channel Responder MemoryStore τ) (reconnecting : Bool) : Prop :=
  match reconnecting with
  | false => c.kind = .association .visual none none ∧ ∃ listener, c.codeListener = some listener
  | true => ∃ device expected, c.kind = .reconnection device expected true

/-- A channel whose engine has been asked nothing. -/
structure Ready (c : Channel Responder MemoryStore τ) (reconnecting : Bool) : Prop where
  /-- The handshake has not begun. -/
  stage : c.stage = .unknown
  /-- It is not over either. -/
  phase : c.phase = .handshaking
  /-- There is no key yet. -/
  key : c.key = none
  /-- The engine is a fresh responder. -/
  engine : c.engine = { Responder.visual with reconnecting }
  /-- What the channel is for. -/
  purpose : Purpose c reconnecting

/-! ## The frames of the companion -/

/-- The commitment is answered by the host's share. -/
theorem deliver_commitment {commitment share : Bytes} {r : Responder} {tape : Tape}
    {done : List StreamAct} {s : τ} (ready : Ready c reconnecting)
    (answered : c.engine.init S commitment c.tape =
      (.ok { stage := .inProgress, next := some share }, r, tape))
    (written : stream.write ⟨none, false, share⟩ .handshake c.stream = (.ok (), done, s)) :
    ∃ o, deliver S stream false commitment c =
        (o, { c with stage := .inProgress, engine := r, tape := tape, stream := s }) ∧
      Act.frames o.acts = [⟨none, false, share⟩] := by
  have hinit := Association.init_eq (S := setting S stream) (t := c.turn) answered
    (show c.stage.admits .inProgress = true by rw [ready.stage]; rfl) rfl written
  have handled : Turn.handle (setting S stream) commitment c.turn =
      Association.init (setting S stream) commitment c.turn := by
    have hpurpose := ready.purpose
    cases reconnecting with
    | false =>
      rw [Turn.handle_association commitment hpurpose.1]
      simp [Association.handle, Work.bind_apply, Work.get_apply, ready.stage]
    | true =>
      obtain ⟨device, expected, hkind⟩ := hpurpose
      rw [Turn.handle_reconnection commitment hkind]
      simp [Reconnection.handle, Work.bind_apply, Work.get_apply, ready.stage]
  exact ⟨_, Channel.call_plain ready.phase (handled.trans hinit), rfl⟩

variable (stream) in
/-- The disclosure leads the host to its agreement; a first meeting shows the code. -/
theorem deliver_disclosure {disclosure : Bytes} {a : Agreement} {r : Responder}
    (stage : c.stage = .inProgress) (phase : c.phase = .handshaking)
    (purpose : Purpose c reconnecting)
    (answered : c.engine.proceed S disclosure = (.ok (Responder.awaited reconnecting a), r)) :
    ∃ o, deliver S stream false disclosure c =
        (o, { c with stage := (Responder.awaited reconnecting a).stage, engine := r }) ∧
      Event.codes o.events = (Responder.awaited reconnecting a).code.toList := by
  have asked : (setting S stream).engine.answer (.proceed disclosure) c.turn.engine c.turn.tape =
      (.ok (Responder.awaited reconnecting a), r, c.tape) := by
    simp [setting, Responder.engine, answered]
  cases reconnecting with
  | false =>
    obtain ⟨hkind, listener, hlistener⟩ := purpose
    have hproceed := Association.proceed_eq (S := setting S stream) (t := c.turn) hkind asked rfl rfl
      hlistener (show c.stage.admits .verificationNeeded = true by rw [stage]; rfl)
    have handled : Turn.handle (setting S stream) disclosure c.turn =
        Association.proceed (setting S stream) disclosure c.turn := by
      rw [Turn.handle_association disclosure hkind]
      simp [Association.handle, Work.bind_apply, Work.get_apply, stage]
    exact ⟨_, Channel.call_plain phase (handled.trans hproceed), rfl⟩
  | true =>
    obtain ⟨device, expected, hkind⟩ := purpose
    have hproceed := Reconnection.proceed_eq (S := setting S stream) (t := c.turn) asked
      (show c.stage.admits .resumingSession = true by rw [stage]; rfl) rfl
    have handled : Turn.handle (setting S stream) disclosure c.turn =
        Reconnection.proceed (setting S stream) disclosure c.turn := by
      rw [Turn.handle_reconnection disclosure hkind]
      simp [Reconnection.handle, Work.bind_apply, Work.get_apply, stage]
    exact ⟨_, Channel.call_plain phase (handled.trans hproceed), rfl⟩

/-! ## The exchange -/

/-- Host and companion come to the same agreement, and the host waits for what confirms it. -/
theorem exchange_ready (hS : S.Agrees) (takes : stream.Takes good) (ready : Ready c reconnecting)
    (link : good c.stream) (tape : Tape) :
    ∃ i a r s hostTape tape',
      exchange S stream c tape = some (i, (Responder.awaited reconnecting a).code.toList,
        { c with
          stage := (Responder.awaited reconnecting a).stage
          engine := r
          stream := s
          tape := hostTape }, tape') ∧
      i.agreement = some a ∧ r.agreement = some a ∧
      r.stage = (Responder.awaited reconnecting a).stage ∧ good s := by
  obtain ⟨commitment, share, disclosure, i₁, i₂, r₁, r₂, a, tape', hostTape, hcommit, hinit, hreveal,
    hproceed, hshort, hi, hr, hstage⟩ := honest_exchange hS (r := { Responder.visual with reconnecting })
      rfl rfl tape (Initiator.fresh S tape).2 c.tape
  rw [Responder.confirmation_visual] at hproceed hstage
  obtain ⟨done, s, written, hs⟩ := takes ⟨none, false, share⟩ c.stream hshort link
  rw [← ready.engine] at hinit
  obtain ⟨o₁, hfirst, hframes⟩ := deliver_commitment ready hinit written
  obtain ⟨o₂, hsecond, hcodes⟩ := deliver_disclosure stream
    (c := { c with stage := .inProgress, engine := r₁, tape := hostTape, stream := s })
    rfl ready.phase ready.purpose hproceed
  refine ⟨i₂, a, r₂, s, hostTape, tape', ?_, hi, hr, hstage, hs⟩
  simp [exchange, hcommit, hfirst, hframes, hreveal, hsecond, hcodes]

end DevicePairing.Pairing
