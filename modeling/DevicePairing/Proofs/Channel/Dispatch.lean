import DevicePairing.Proofs.Channel.Soundness

/-!
# Where a call is passed on to

A call is looked at before anything is done about it: by the phase the channel is in, by whether there is
a key, and, for a frame of the handshake, by what the channel is for and what the handshake has reached.
`Channel.SetsOff` names the step that a frame of the handshake sets off, and `Channel.Dispatched` lists
where a call of any kind may end up. `Channel.dispatched_serve` says that the list is complete, for every
channel in every state, so that a proof about calls takes these cases apart and no conditional of the
program.
-/

namespace DevicePairing

/-- Whether an event tells of something that was refused. -/
def Event.isRefusal : Event → Bool
  | .messageError _ => true
  | _ => false

/-- To tell of a refusal is to tell of traffic. -/
theorem Event.isTraffic_of_isRefusal {e : Event} (h : e.isRefusal = true) : e.isTraffic = true := by
  cases e <;> first | rfl | cases h

variable {ε σ τ : Type} (S : Setting ε σ τ)

namespace Channel

/-- The step that a frame with a given payload sets off, by what the channel is for and what the
handshake has reached. -/
inductive SetsOff (c : Channel ε σ τ) (payload : Bytes) : Work ε σ τ Unit → Prop where
  /-- The first frame for the engine. -/
  | init (stage : c.stage = .unknown) (admitted : c.kind.returning = none ∨ c.verified = true) :
    SetsOff c payload (Association.init S payload)
  /-- The frame that should prove who comes back. -/
  | verify {device : Uuid} {expected : Option Bytes} (stage : c.stage = .unknown)
    (kind : c.kind = .reconnection device expected false) :
    SetsOff c payload (Reconnection.verify S device expected payload)
  /-- The second frame of an association. -/
  | proceed (stage : c.stage = .inProgress) (kind : c.kind.returning = none) :
    SetsOff c payload (Association.proceed S payload)
  /-- The second frame of a device that comes back. -/
  | proceedReturning {device : Uuid} (stage : c.stage = .inProgress)
    (kind : c.kind.returning = some device) : SetsOff c payload (Reconnection.proceed S payload)
  /-- The peer's code. -/
  | peerCode (stage : c.stage = .oobVerificationNeeded) (kind : c.kind.returning = none) :
    SetsOff c payload (Association.peerCode S payload)
  /-- The last frame of an association. -/
  | final (stage : c.stage = .finished) (kind : c.kind.returning = none) :
    SetsOff c payload (Association.final S payload)
  /-- The proof of a device that comes back. -/
  | resume {device : Uuid} (stage : c.stage = .resumingSession)
    (kind : c.kind.returning = some device) :
    SetsOff c payload (Reconnection.resume S device payload)
  /-- No frame belongs here. -/
  | stray (late : Stage.inProgress.rank < c.stage.rank) : SetsOff c payload (throw .invalidState)

variable {S} in
/-- Every step that a frame sets off has a footprint. -/
theorem footprint_setsOff {c : Channel ε σ τ} {payload : Bytes} {w : Work ε σ τ Unit}
    (step : SetsOff S c payload w) : Work.Footprint S Touch.all w := by
  have hall (touches : List Touch) : touches ⊆ Touch.all := fun x _ => x.mem_all
  cases step with
  | init _ _ => exact (Association.asksFirst_init payload).footprint.mono (hall _)
  | verify _ _ => exact (Reconnection.footprint_verify _ _ payload).mono (hall _)
  | proceed _ _ => exact (Association.asksFirst_proceed payload).footprint.mono (hall _)
  | proceedReturning _ _ => exact (Reconnection.asksFirst_proceed payload).footprint.mono (hall _)
  | peerCode _ _ => exact (Association.footprint_peerCode payload).mono (hall _)
  | final _ _ => exact (Association.footprint_final payload).mono (hall _)
  | resume _ _ => exact (Reconnection.footprint_resume _ payload).mono (hall _)
  | stray _ => exact .throw _

/-- Where a call may end up: the turn in which it is dealt with. -/
inductive Dispatched (c : Channel ε σ τ) : Call → Turn ε σ τ → Prop where
  /-- It is passed over. -/
  | idle {i : Call} : Dispatched c i c.turn
  /-- Observers are told of traffic, and that is all. -/
  | told {i : Call} {e : Event} (notClosed : c.phase ≠ .closed) (traffic : e.isTraffic = true)
    (failed : ∀ code, c.phase = .failed code → e.isRefusal = true) :
    Dispatched c i (c.turn.announce e)
  /-- A message of the owner is sealed under the key and written, as far as that goes. -/
  | sent {m : DeviceMessage} {t : Turn ε σ τ} (prepares : Turn.Prepares S c.turn t)
    (events : t.events = []) (keyed : c.key ≠ none) (writes : ∀ a ∈ t.acts, a.isWrite = true)
    (kind : t.kind = c.kind) : Dispatched c (.send m) t
  /-- A frame of the handshake cannot be opened. -/
  | unreadable {m : DeviceMessage} {e : ChannelError} {code : ErrorCode}
    (phase : c.phase = .handshaking) :
    Dispatched c (.arrived m .handshake) ((c.turn.announce (.messageError e)).fail code)
  /-- The owner asks for what the handshake is not ready for. -/
  | premature {i : Call} (phase : c.phase = .handshaking) :
    Dispatched c i (c.turn.fail .invalidState)
  /-- A frame of the handshake sets off a step. -/
  | frame {m : DeviceMessage} {payload : Bytes} {w : Work ε σ τ Unit}
    (phase : c.phase = .handshaking) (opens : c.Opens S m payload) (step : SetsOff S c payload w) :
    Dispatched c (.arrived m .handshake) (c.turn.attempt w)
  /-- The user accepts the code. -/
  | accepted (phase : c.phase = .handshaking) (kind : c.kind.returning = none)
    (stage : c.stage = .verificationNeeded ∨ c.stage = .oobVerificationNeeded) :
    Dispatched c .accept (c.turn.attempt (Association.accept S))
  /-- The channel is closed. -/
  | closed (notClosed : c.phase ≠ .closed) :
    Dispatched c .close
      ({ c.turn.wipe with phase := .closed, callbacks := .empty, codeListener := none }.note
        (.listening false))

variable {S} {c : Channel ε σ τ}

/-- What a frame of the handshake sets off. -/
theorem setsOff_handle (c : Channel ε σ τ) (payload : Bytes) :
    ∃ w, SetsOff S c payload w ∧ Turn.handle S payload c.turn = w c.turn := by
  unfold Turn.handle
  simp only [Work.bind_apply, Work.get_apply]
  rcases hkind : c.kind with ⟨verification, pendingKey, former⟩ | ⟨device, expected, verified⟩
  · have hassociation : c.kind.returning = none := by rw [hkind]; rfl
    unfold Association.handle
    simp only [Work.bind_apply, Work.get_apply, turn, hkind]
    rcases hstage : c.stage with _ | _ | _ | _ | _ | _
    case unknown => exact ⟨_, .init hstage (.inl hassociation), rfl⟩
    case inProgress => exact ⟨_, .proceed hstage hassociation, rfl⟩
    case oobVerificationNeeded => exact ⟨_, .peerCode hstage hassociation, rfl⟩
    case finished => exact ⟨_, .final hstage hassociation, rfl⟩
    all_goals exact ⟨_, .stray (by rw [hstage]; decide), rfl⟩
  · have hreturning : c.kind.returning = some device := by rw [hkind]; rfl
    unfold Reconnection.handle
    simp only [Work.bind_apply, Work.get_apply, turn, hkind]
    rcases hstage : c.stage with _ | _ | _ | _ | _ | _
    case unknown =>
      cases verified with
      | true => exact ⟨_, .init hstage (.inr (by rw [Channel.verified, hkind])), rfl⟩
      | false => exact ⟨_, .verify hstage hkind, rfl⟩
    case inProgress => exact ⟨_, .proceedReturning hstage hreturning, rfl⟩
    case resumingSession => exact ⟨_, .resume hstage hreturning, rfl⟩
    all_goals exact ⟨_, .stray (by rw [hstage]; decide), rfl⟩

/-- A frame that is not sealed is handled as it is. -/
theorem serve_of_plain {m : DeviceMessage} (phase : c.phase = .handshaking)
    (plain : m.encrypted = false) :
    c.serve S (.arrived m .handshake) = c.turn.attempt (Turn.handle S m.payload) := by
  show c.turn.takeHandshake S m = _
  unfold Turn.takeHandshake
  rw [if_pos (show c.turn.phase.isHandshaking = true from Phase.isHandshaking_iff.2 phase),
    if_neg (by simp [plain])]

/-- A frame that is not sealed sets off its step as it is. -/
theorem setsOff_serve {m : DeviceMessage} (phase : c.phase = .handshaking)
    (plain : m.encrypted = false) :
    ∃ w, SetsOff S c m.payload w ∧ c.serve S (.arrived m .handshake) = c.turn.attempt w := by
  obtain ⟨w, hstep, hw⟩ := setsOff_handle (S := S) c m.payload
  refine ⟨w, hstep, ?_⟩
  rw [serve_of_plain phase plain, Turn.attempt_eq_settle, hw, ← Turn.attempt_eq_settle]

/-- A frame that is refused without further ado has the channel fail, and observers are told. -/
theorem call_of_refused {m : DeviceMessage} {code : ErrorCode} (phase : c.phase = .handshaking)
    (h : c.serve S (.arrived m .handshake) = c.turn.fail code) :
    c.call S (.arrived m .handshake) =
      (⟨.ok (), [], [.failed code]⟩, (c.turn.fail code).toChannel) := by
  show ((⟨.ok (), (c.serve S (.arrived m .handshake)).acts,
    (c.serve S (.arrived m .handshake)).events⟩ : Outcome),
    (c.serve S (.arrived m .handshake)).toChannel) = _
  rw [h, Turn.acts_fail, Turn.fail_of_handshaking phase]
  rfl

/-- A frame that may be read is passed on to the step that it sets off. -/
theorem dispatched_handle {m : DeviceMessage} {payload : Bytes} (phase : c.phase = .handshaking)
    (opens : c.Opens S m payload) :
    Dispatched S c (.arrived m .handshake) (c.turn.attempt (Turn.handle S payload)) := by
  obtain ⟨w, hstep, hw⟩ := setsOff_handle (S := S) c payload
  have hattempt : c.turn.attempt (Turn.handle S payload) = c.turn.attempt w := by
    rw [Turn.attempt_eq_settle, Turn.attempt_eq_settle, hw]
  rw [hattempt]
  exact .frame phase opens hstep

/-- A frame of the handshake is handled, refused or passed over. -/
theorem dispatched_takeHandshake (m : DeviceMessage) (c : Channel ε σ τ) :
    Dispatched S c (.arrived m .handshake) (c.turn.takeHandshake S m) := by
  unfold Turn.takeHandshake
  by_cases phase : c.turn.phase = .handshaking
  case neg =>
    rw [if_neg fun h => phase (Phase.isHandshaking_iff.1 h)]
    exact .idle
  rw [if_pos (Phase.isHandshaking_iff.2 phase)]
  by_cases hsealed : m.encrypted = true
  case neg =>
    rw [if_neg hsealed]
    exact dispatched_handle phase ((if_neg hsealed).mpr rfl)
  rw [if_pos hsealed]
  split
  · exact .unreadable phase
  next key hkey =>
    split
    · next payload hplain =>
      exact dispatched_handle phase ((if_pos hsealed).mpr ⟨key, hkey, hplain⟩)
    · exact .unreadable phase

/-- A message of the peer is told to observers, or its refusal is, or it is passed over. -/
theorem dispatched_takeMessage (m : DeviceMessage) (c : Channel ε σ τ) :
    Dispatched S c (.arrived m .client) (c.turn.takeMessage S m) := by
  unfold Turn.takeMessage
  rcases hphase : c.turn.phase with _ | _ | code | _
  case closed => exact .idle
  case failed =>
    have hfailed : c.phase = .failed code := hphase
    exact .told (by rw [hfailed]; exact fun h => nomatch h) rfl fun _ _ => rfl
  -- while the channel is neither failed nor closed, whatever is told of a message may be told
  all_goals
    have hopen : ∀ e : Event, e.isTraffic = true →
        Dispatched S c (.arrived m .client) (c.turn.announce e) := by
      have hp : c.phase = _ := hphase
      exact fun e he => .told (by rw [hp]; exact fun h => nomatch h) he
        (by rw [hp]; exact fun _ h => nomatch h)
    dsimp only
    split
    · split
      · exact hopen _ rfl
      · split <;> exact hopen _ rfl
    · exact hopen _ rfl

/-- An error of the stream is told to observers, or is passed over. -/
theorem dispatched_takeError (e : StreamError) (c : Channel ε σ τ) :
    Dispatched S c (.streamFailed e) (c.turn.takeError e) := by
  unfold Turn.takeError
  split
  · exact .idle
  · next hopen => exact .told hopen rfl fun _ _ => rfl

/-- To give up a handshake that is over already is nothing. -/
theorem dispatched_fail (i : Call) (c : Channel ε σ τ) :
    Dispatched S c i (c.turn.fail .invalidState) := by
  by_cases phase : c.phase = .handshaking
  · exact .premature phase
  · rw [Turn.fail_of_over phase]
    exact .idle

/-- A message of the owner is sealed and written, or refused. -/
theorem dispatched_send (m : DeviceMessage) (c : Channel ε σ τ) :
    Dispatched S c (.send m) (c.turn.send S m).2 := by
  unfold Turn.send
  split
  · exact .idle
  · exact .idle
  split
  · exact dispatched_fail _ c
  next key hkey =>
    have hkeyed : c.key ≠ none := by
      intro hnone
      simp [turn, hnone] at hkey
    rcases key.encrypt S.suite m.payload c.turn.tape with ⟨_ | sealed, tape⟩
    · exact .sent (Turn.prepares_draw c.turn tape) rfl hkeyed (List.forall_mem_nil _) rfl
    · have hwrite := (Turn.prepares_draw (S := S) c.turn tape).trans
        (Turn.prepares_write (m.withPayload true sealed) .client { c.turn with tape })
      have hevents : (({ c.turn with tape } : Turn ε σ τ).write S (m.withPayload true sealed)
          .client).2.events = [] := rfl
      have hacts : ∀ a ∈ (({ c.turn with tape } : Turn ε σ τ).write S (m.withPayload true sealed)
          .client).2.acts, a.isWrite = true := by
        intro a ha
        simp [Turn.write, Turn.note, turn] at ha
        rw [ha]
        rfl
      have hkind : (({ c.turn with tape } : Turn ε σ τ).write S (m.withPayload true sealed)
          .client).2.kind = c.kind := rfl
      dsimp only
      rcases hw : ({ c.turn with tape } : Turn ε σ τ).write S (m.withPayload true sealed) .client with
        ⟨_ | _, t'⟩
      all_goals
        rw [hw] at hwrite hevents hacts hkind
        exact .sent hwrite hevents hkeyed hacts hkind

/-- The acceptance of a code leads to the key, or is refused. -/
theorem dispatched_accept (c : Channel ε σ τ) : Dispatched S c .accept (c.turn.accept S) := by
  unfold Turn.accept
  by_cases phase : c.turn.phase = .handshaking
  case neg =>
    rw [if_neg fun h => phase (Phase.isHandshaking_iff.1 h)]
    exact .idle
  rw [if_pos (Phase.isHandshaking_iff.2 phase)]
  split
  case h_1 hkind hstage =>
    exact .accepted phase (by rw [show c.kind = _ from hkind]; rfl) (.inl hstage)
  case h_2 hkind hstage =>
    exact .accepted phase (by rw [show c.kind = _ from hkind]; rfl) (.inr hstage)
  case h_3 => exact dispatched_fail _ c

/-- A channel that is closed drops its secrets, unless it is closed already. -/
theorem dispatched_close (c : Channel ε σ τ) : Dispatched S c .close c.turn.close := by
  unfold Turn.close
  split
  · next phase hphase =>
    obtain ⟨rfl, hopen⟩ := Phase.transition_eq_ok_iff.1 hphase
    refine .closed fun h => ?_
    rcases hopen with ⟨_, h' | ⟨_, h'⟩⟩ | ⟨h', _⟩
    · cases h'
    · cases h'
    · exact h' h
  · exact .idle

/-- Every call ends up in one of the places listed. -/
theorem dispatched_serve (i : Call) (c : Channel ε σ τ) : Dispatched S c i (c.serve S i) := by
  cases i with
  | arrived m operation =>
    cases operation with
    | handshake => exact dispatched_takeHandshake m c
    | client => exact dispatched_takeMessage m c
  | streamFailed e => exact dispatched_takeError e c
  | send m => exact dispatched_send m c
  | accept => exact dispatched_accept c
  | close => exact dispatched_close c

end Channel

end DevicePairing
