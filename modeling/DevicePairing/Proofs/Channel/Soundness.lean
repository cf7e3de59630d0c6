import DevicePairing.Proofs.Channel.Handlers

/-!
# Soundness of channels

`Channel.Sound` is what holds of a channel between two calls, whatever its engine, its store and its
stream do: a key belongs to a finished handshake that is not over, an established channel has one, and
the key that waits for the last frame of an association is the key of the channel until the handshake
ends.

`Channel.served_serve` says what a call to a sound channel may come to. Almost always the turn is quiet
(`Turn.Quiet`): no secret is handed to the store and the channel is not established. The two calls that
matter carry the last frame of an association and the proof of a device that comes back, and for these
`Association.Stored` and `Reconnection.Resumed` say the rest. From this, `Channel.sound_run` follows.
-/

namespace DevicePairing

/-- The key that waits for the last frame of an association. -/
def Kind.pendingKey : Kind → Option SessionKey
  | .association _ key _ => key
  | .reconnection .. => none

/-- The device whose return a channel is for; there is none for an association. -/
def Kind.returning : Kind → Option Uuid
  | .association .. => none
  | .reconnection device _ _ => some device

/-- The key that waits is part of the duty. -/
theorem Kind.pendingKey_of_duty {k k' : Kind} (h : k.duty = k'.duty) :
    k.pendingKey = k'.pendingKey := by
  cases k <;> cases k' <;> simp_all [duty, pendingKey]

/-- So is the device that comes back. -/
theorem Kind.returning_of_duty {k k' : Kind} (h : k.duty = k'.duty) : k.returning = k'.returning := by
  cases k <;> cases k' <;> simp_all [duty, returning]

/-- The test for handshaking is right. -/
theorem Phase.isHandshaking_iff {p : Phase} : p.isHandshaking = true ↔ p = .handshaking := by
  simp [isHandshaking]

/-- The life of a channel may go on from one phase to another: nothing comes before the handshake, and
nothing after the end. -/
def Phase.Leads (p q : Phase) : Prop := q = p ∨ p = .handshaking ∨ q = .closed

/-- What may come after may come later. -/
theorem Phase.Leads.trans {p q r : Phase} (h : p.Leads q) (h' : q.Leads r) : p.Leads r := by
  rcases h with rfl | h | rfl
  · exact h'
  · exact .inr (.inl h)
  · rcases h' with rfl | h' | h'
    · exact .inr (.inr rfl)
    · cases h'
    · exact .inr (.inr h')

/-- A handshake that is over does not begin again. -/
theorem Phase.Leads.ne_handshaking {p q : Phase} (h : p.Leads q) (ended : p ≠ .handshaking) :
    q ≠ .handshaking := by
  rcases h with rfl | h | rfl
  · exact ended
  · exact absurd h ended
  · exact fun h => nomatch h

/-- An established channel stays so until it is closed. -/
theorem Phase.Leads.established_or_closed {p q : Phase} (h : p.Leads q)
    (ended : p = .established ∨ p = .closed) : q = .established ∨ q = .closed := by
  rcases h with rfl | rfl | rfl
  · exact ended
  · rcases ended with ended | ended <;> cases ended
  · exact .inr rfl

/-- What becomes established was handshaking. -/
theorem Phase.Leads.handshaking_of_established {p q : Phase} (h : p.Leads q) (before : p ≠ .established)
    (after : q = .established) : p = .handshaking := by
  rcases h with rfl | h | rfl
  · exact absurd after before
  · exact h
  · cases after

variable {ε σ τ : Type}

/-- What holds of a channel between two calls. -/
structure Channel.Sound (c : Channel ε σ τ) : Prop where
  /-- A key belongs to a handshake that is finished. -/
  finished : c.key ≠ none → c.stage = .finished
  /-- A channel that has failed or is closed has no key. -/
  alive : c.key ≠ none → c.phase.isTerminal = false
  /-- An established channel has a key. -/
  keyed : c.phase = .established → c.key ≠ none
  /-- While the handshake lasts, the key that waits is the key of the channel. -/
  pending : c.phase = .handshaking → c.kind.pendingKey = c.key
  /-- Once the handshake is over no key waits any more. -/
  spent : c.phase ≠ .handshaking → c.kind.pendingKey = none

/-- As long as a device is only about to come back there is no key. -/
theorem Channel.Sound.key_of_returning {c : Channel ε σ τ} (sound : c.Sound)
    (phase : c.phase = .handshaking) {device : Uuid} (kind : c.kind.returning = some device) :
    c.key = none := by
  rw [← sound.pending phase]
  rcases hk : c.kind with _ | _
  · rw [hk] at kind
    cases kind
  · rfl

/-- A channel is made without any key, so it is sound if none waits. -/
theorem Channel.sound_ofKind {kind : Kind} (h : kind.pendingKey = none) (engine : ε) (store : σ)
    (stream : τ) (tape : Tape) : (Channel.ofKind kind engine store stream tape).Sound where
  finished hkey := absurd rfl hkey
  alive hkey := absurd rfl hkey
  keyed hphase := nomatch hphase
  pending _ := h
  spent _ := h

/-! ## Giving up -/

namespace Turn

/-- Who gives up a handshake drops the secrets and has observers told. -/
theorem fail_of_handshaking {t : Turn ε σ τ} (h : t.phase = .handshaking) (code : ErrorCode) :
    t.fail code = { t.wipe with
      phase := .failed code
      events := t.events ++ [.failed code] } := by
  unfold fail
  rw [h]
  rfl

/-- Once the handshake is over there is nothing to give up. -/
theorem fail_of_over {t : Turn ε σ τ} (h : t.phase ≠ .handshaking) (code : ErrorCode) :
    t.fail code = t := by
  unfold fail
  rcases hp : t.phase with _ | _ | _ | _
  · exact absurd hp h
  all_goals rfl

/-- Where the secrets are dropped no key waits any more. -/
theorem pendingKey_wipe (t : Turn ε σ τ) : t.wipe.kind.pendingKey = none := by
  unfold wipe
  rcases t.kind with ⟨_ | _, _, _⟩ | _ <;> rfl

/-- To drop the secrets does not change what the channel is for. -/
theorem returning_wipe (t : Turn ε σ τ) : t.wipe.kind.returning = t.kind.returning := by
  unfold wipe
  rcases t.kind with ⟨_ | _, _, _⟩ | _ <;> rfl

/-- To give up in the middle of a handshake leaves a sound channel, whatever went before. -/
theorem sound_fail {t : Turn ε σ τ} (h : t.phase = .handshaking) (code : ErrorCode) :
    (t.fail code).toChannel.Sound := by
  rw [fail_of_handshaking h]
  exact ⟨fun hkey => absurd rfl hkey, fun hkey => absurd rfl hkey, fun hphase => (nomatch hphase),
    fun hphase => (nomatch hphase), fun _ => t.pendingKey_wipe⟩

/-- To give up is not an act towards a collaborator. -/
theorem acts_fail (t : Turn ε σ τ) (code : ErrorCode) : (t.fail code).acts = t.acts := by
  by_cases hp : t.phase = .handshaking
  · rw [fail_of_handshaking hp]
    rfl
  · rw [fail_of_over hp]

/-- The store has no part in it. -/
theorem store_fail (t : Turn ε σ τ) (code : ErrorCode) : (t.fail code).store = t.store := by
  by_cases hp : t.phase = .handshaking
  · rw [fail_of_handshaking hp]
    rfl
  · rw [fail_of_over hp]

/-- What becomes of a turn by the answer of a step. -/
def settle (r : Except ErrorCode Unit) (t : Turn ε σ τ) : Turn ε σ τ :=
  match r with
  | .ok _ => t
  | .error code => t.fail code

/-- To attempt a step is to take it and then to settle what became of it. -/
theorem attempt_eq_settle (w : Work ε σ τ Unit) (t : Turn ε σ τ) :
    t.attempt w = (w t).2.settle (w t).1 := by
  unfold attempt settle
  rcases w t with ⟨_ | _, _⟩ <;> rfl

/-- To settle is not an act towards a collaborator. -/
@[simp] theorem acts_settle (r : Except ErrorCode Unit) (t : Turn ε σ τ) :
    (t.settle r).acts = t.acts := by
  cases r with
  | ok _ => rfl
  | error code => exact t.acts_fail code

/-- The store has no part in that either. -/
@[simp] theorem store_settle (r : Except ErrorCode Unit) (t : Turn ε σ τ) :
    (t.settle r).store = t.store := by
  cases r with
  | ok _ => rfl
  | error code => exact t.store_fail code

/-! ## Quiet turns -/

variable (S : Setting ε σ τ)

/-- Between two moments of a turn no secret is handed to the store and the channel is not
established. -/
structure Quiet (t t' : Turn ε σ τ) : Prop extends Spares S t t' where
  /-- The life of the channel goes on. -/
  leads : t.phase.Leads t'.phase
  /-- The channel is only established if it was. -/
  established : t'.phase = .established → t.phase = .established
  /-- A sound channel stays sound. -/
  sound : t.toChannel.Sound → t'.toChannel.Sound
  /-- The device the channel waits for is the same. -/
  returning : t'.kind.returning = t.kind.returning

variable {S} {t t' t'' : Turn ε σ τ}

/-- What is quiet, one after another, is quiet. -/
theorem Quiet.trans (h : Quiet S t t') (h' : Quiet S t' t'') : Quiet S t t'' :=
  ⟨h.toSpares.trans h'.toSpares, h.leads.trans h'.leads, fun hp => h.established (h'.established hp),
    fun hs => h'.sound (h.sound hs), h'.returning.trans h.returning⟩

/-- To prepare is quiet. -/
theorem Quiet.of_prepares (h : Prepares S t t') : Quiet S t t' := by
  refine ⟨h.toSpares, .inl h.phase, fun hp => h.phase ▸ hp, fun hs => ?_,
    Kind.returning_of_duty h.duty⟩
  have hpending := Kind.pendingKey_of_duty h.duty
  refine ⟨fun hkey => ?_, fun hkey => ?_, fun hp => ?_, fun hp => ?_, fun hp => ?_⟩
  · have hrank := h.rank
    rw [hs.finished (h.key ▸ hkey)] at hrank
    rcases hstage : t'.stage <;> simp_all [Stage.rank]
  · rw [h.phase]
    exact hs.alive (h.key ▸ hkey)
  · rw [h.key]
    exact hs.keyed (h.phase ▸ hp)
  · rw [hpending, h.key]
    exact hs.pending (h.phase ▸ hp)
  · rw [hpending]
    exact hs.spent (h.phase ▸ hp)

/-- So is to do nothing. -/
theorem Quiet.refl (t : Turn ε σ τ) : Quiet S t t := .of_prepares (.refl t)

/-- What nothing depends on may change. -/
theorem Quiet.of_eq (kind : t'.kind = t.kind) (stage : t'.stage = t.stage) (phase : t'.phase = t.phase)
    (key : t'.key = t.key) (spares : Spares S t t') : Quiet S t t' :=
  .of_prepares ⟨spares, key, phase, by rw [kind], Nat.le_of_eq (by rw [stage])⟩

/-- What is only announced is quiet. -/
theorem Quiet.announce (e : Event) (t : Turn ε σ τ) : Quiet S t (t.announce e) :=
  .of_eq rfl rfl rfl rfl (.of_eq rfl rfl)

/-- Who gives up hands nothing to the store. -/
theorem Spares.fail (t : Turn ε σ τ) (code : ErrorCode) : Spares S t (t.fail code) := by
  by_cases hp : t.phase = .handshaking
  · rw [fail_of_handshaking hp]
    exact .of_eq rfl rfl
  · rw [fail_of_over hp]
    exact .refl t

/-- A handshake that is given up has failed with the code. -/
theorem phase_fail_of_handshaking (h : t.phase = .handshaking) (code : ErrorCode) :
    (t.fail code).phase = .failed code := by
  rw [fail_of_handshaking h]

/-- To give up is to end the handshake, if it was not over before. -/
theorem phase_fail_ne_handshaking (t : Turn ε σ τ) (code : ErrorCode) :
    (t.fail code).phase ≠ .handshaking := by
  by_cases hp : t.phase = .handshaking
  · rw [phase_fail_of_handshaking hp]
    exact fun h => nomatch h
  · rwa [fail_of_over hp]

/-- So it is not established. -/
theorem phase_fail_ne_established (h : t.phase = .handshaking) (code : ErrorCode) :
    (t.fail code).phase ≠ .established := by
  rw [phase_fail_of_handshaking h]
  exact fun h => nomatch h

/-- It is for the same device as before. -/
theorem returning_fail (t : Turn ε σ τ) (code : ErrorCode) :
    (t.fail code).kind.returning = t.kind.returning := by
  by_cases hp : t.phase = .handshaking
  · rw [fail_of_handshaking hp]
    exact t.returning_wipe
  · rw [fail_of_over hp]

/-- To give up is quiet. -/
theorem Quiet.fail (t : Turn ε σ τ) (code : ErrorCode) : Quiet S t (t.fail code) := by
  by_cases hp : t.phase = .handshaking
  · refine ⟨.fail t code, .inr (.inl hp), fun h => ?_, fun _ => sound_fail hp code,
      t.returning_fail code⟩
    rw [phase_fail_of_handshaking hp] at h
    cases h
  · rw [fail_of_over hp]
    exact .refl t

/-- A channel that gives up is sound, whatever it had come to before. -/
theorem sound_settle_error (h : t.phase = .handshaking) (code : ErrorCode) :
    (t.settle (.error code)).toChannel.Sound := sound_fail h code

/-- A quiet step stays quiet when it is given up. -/
theorem Quiet.settle (h : Quiet S t t') (r : Except ErrorCode Unit) : Quiet S t (t'.settle r) := by
  cases r with
  | ok _ => exact h
  | error code => exact h.trans (.fail t' code)

/-- So an attempt is quiet if the step is. -/
theorem Quiet.attempt {w : Work ε σ τ Unit} (h : Quiet S t (w t).2) : Quiet S t (t.attempt w) := by
  rw [attempt_eq_settle]
  exact h.settle _

/-- A key that is agreed on in an association is a sound one. -/
theorem quiet_keyed (key : SessionKey) (kind : t.kind.returning = none)
    (phase : t.phase = .handshaking) : Quiet S t (Association.keyed S key t) := by
  have hask := Work.prepares_ask (S := S) .verify t
  have hphase : (Association.keyed S key t).phase = .handshaking := hask.phase.trans phase
  have hassociation : ∃ verification pendingKey device,
      t.kind = .association verification pendingKey device := by
    rcases hk : t.kind with ⟨verification, pendingKey, device⟩ | _
    · exact ⟨_, _, _, rfl⟩
    · rw [hk] at kind
      cases kind
  obtain ⟨verification, pendingKey, device, hk⟩ := hassociation
  have hkind : (Association.keyed S key t).kind = .association verification (some key) device := by
    unfold Association.keyed
    simp only [hk]
  refine ⟨hask.toSpares.trans (.of_eq rfl rfl), .inr (.inl phase), fun h => ?_, fun _ => ?_, ?_⟩
  · rw [hphase] at h
    cases h
  · refine ⟨fun _ => rfl, fun _ => ?_, fun _ => Option.some_ne_none key, fun _ => ?_, fun h => ?_⟩
    · rw [hphase]
      rfl
    · rw [hkind]
      rfl
    · exact absurd hphase h
  · rw [hkind, hk]
    rfl

/-- The acceptance of a code sets the key, but it hands nothing to the store and establishes nothing. -/
theorem quiet_accept (kind : t.kind.returning = none) (phase : t.phase = .handshaking) :
    Quiet S t (Association.accept S t).2 := by
  have h := Association.accepted_accept (S := S) t
  generalize (Association.accept S t).1 = r, (Association.accept S t).2 = t' at h
  cases h with
  | refused h => exact .of_prepares h
  | keyed _ _ _ _ =>
    exact (quiet_keyed _ kind phase).trans (.of_prepares (Work.prepares_sendSealed _ _))

/-- Nor does the peer's code, which has ours accepted at most. -/
theorem quiet_peerCode (payload : Bytes) (kind : t.kind.returning = none)
    (phase : t.phase = .handshaking) : Quiet S t (Association.peerCode S payload t).2 := by
  rcases Association.peerCode_cases (S := S) payload t with ⟨code, h⟩ | h
  · rw [h]
    exact .refl t
  · rw [h]
    exact quiet_accept kind phase

end Turn

/-! ## What a call may come to -/

namespace Channel

variable (S : Setting ε σ τ)

/-- What a handshake frame says to a channel: its payload as it is, or what the payload opens to under
the key if the frame is sealed. -/
def Opens (c : Channel ε σ τ) (m : DeviceMessage) (payload : Bytes) : Prop :=
  if m.encrypted then ∃ key, c.key = some key ∧ key.decrypt S.suite m.payload = .ok payload
  else payload = m.payload

variable {S} in
/-- Without a key no frame is opened that is sealed. -/
theorem Opens.plain_of_fresh {c : Channel ε σ τ} {m : DeviceMessage} {payload : Bytes}
    (h : c.Opens S m payload) (fresh : c.key = none) :
    m.encrypted = false ∧ payload = m.payload := by
  unfold Opens at h
  rcases hsealed : m.encrypted with _ | _
  · exact ⟨rfl, by simpa [hsealed] using h⟩
  · simp [hsealed, fresh] at h

/-- What a call to a channel may come to: the turn in which it is dealt with. -/
inductive Served (c : Channel ε σ τ) : Call → Turn ε σ τ → Prop where
  /-- Nothing much. -/
  | quiet {i : Call} {t : Turn ε σ τ} (h : Turn.Quiet S c.turn t) : Served c i t
  /-- The last frame of an association. -/
  | final {m : DeviceMessage} {payload : Bytes} {r : Except ErrorCode Unit} {t : Turn ε σ τ}
    (opens : c.Opens S m payload) (phase : c.phase = .handshaking) (stage : c.stage = .finished)
    (returning : c.kind.returning = none) (stored : Association.Stored S payload c.turn r t) :
    Served c (.arrived m .handshake) (t.settle r)
  /-- The proof of a device that comes back. -/
  | resume {m : DeviceMessage} {payload : Bytes} {device : Uuid} {r : Except ErrorCode Unit}
    {t : Turn ε σ τ} (opens : c.Opens S m payload) (phase : c.phase = .handshaking)
    (fresh : c.key = none) (returning : c.kind.returning = some device)
    (resumed : Reconnection.Resumed S device payload c.turn r t) :
    Served c (.arrived m .handshake) (t.settle r)

variable {S} {c : Channel ε σ τ}

/-- A frame that may be read is quiet, or it is one of the two that matter. -/
theorem served_handle {m : DeviceMessage} {payload : Bytes} (sound : c.Sound)
    (phase : c.phase = .handshaking) (opens : c.Opens S m payload) :
    Served S c (.arrived m .handshake) (c.turn.attempt (Turn.handle S payload)) := by
  unfold Turn.handle
  rw [Turn.attempt_eq_settle, Work.bind_apply, Work.get_apply]
  dsimp only [turn]
  rcases hkind : c.kind with ⟨verification, pendingKey, former⟩ | ⟨device, expected, verified⟩
  · have hreturning : c.turn.kind.returning = none := by
      show c.kind.returning = none
      rw [hkind]
      rfl
    dsimp only
    unfold Association.handle
    rw [Work.bind_apply, Work.get_apply]
    dsimp only
    rcases hstage : c.stage with _ | _ | _ | _ | _ | _
    case unknown =>
      exact .quiet (.settle (.of_prepares (Association.prepares_init payload c.turn)) _)
    case inProgress =>
      exact .quiet (.settle (.of_prepares (Association.prepares_proceed payload c.turn)) _)
    case oobVerificationNeeded =>
      exact .quiet (.settle (Turn.quiet_peerCode payload hreturning phase) _)
    case finished =>
      exact .final opens phase hstage hreturning (Association.stored_final payload phase)
    all_goals exact .quiet (.settle (.refl c.turn) _)
  · have hfresh : c.key = none := by
      rw [← sound.pending phase, hkind]
      rfl
    dsimp only
    unfold Reconnection.handle
    rw [Work.bind_apply, Work.get_apply]
    dsimp only
    rcases hstage : c.stage with _ | _ | _ | _ | _ | _
    case unknown =>
      dsimp only
      split
      · exact .quiet (.settle (.of_prepares (Association.prepares_init payload c.turn)) _)
      · exact .quiet (.settle (.of_prepares (Reconnection.prepares_verify payload hkind)) _)
    case inProgress =>
      exact .quiet (.settle (.of_prepares (Reconnection.prepares_proceed payload c.turn)) _)
    case resumingSession =>
      have hreturning : c.kind.returning = some device := by
        rw [hkind]
        rfl
      exact .resume opens phase hfresh hreturning
        (Reconnection.resumed_resume device payload phase hfresh)
    all_goals exact .quiet (.settle (.refl c.turn) _)

/-- So is every frame of the handshake, since one that may not be read is refused. -/
theorem served_takeHandshake (m : DeviceMessage) (sound : c.Sound) :
    Served S c (.arrived m .handshake) (c.turn.takeHandshake S m) := by
  unfold Turn.takeHandshake
  by_cases phase : c.turn.phase = .handshaking
  case neg =>
    rw [if_neg fun h => phase (Phase.isHandshaking_iff.1 h)]
    exact .quiet (.refl c.turn)
  rw [if_pos (Phase.isHandshaking_iff.2 phase)]
  by_cases hsealed : m.encrypted = true
  case neg =>
    rw [if_neg hsealed]
    exact served_handle sound phase ((if_neg hsealed).mpr rfl)
  rw [if_pos hsealed]
  split
  · exact .quiet ((Turn.Quiet.announce _ _).trans (.fail _ _))
  next key hkey =>
    split
    · next payload hplain =>
      exact served_handle sound phase ((if_pos hsealed).mpr ⟨key, hkey, hplain⟩)
    · exact .quiet ((Turn.Quiet.announce _ _).trans (.fail _ _))

/-- A message of the peer is told to observers at most. -/
theorem quiet_takeMessage (m : DeviceMessage) (t : Turn ε σ τ) :
    Turn.Quiet S t (t.takeMessage S m) := by
  unfold Turn.takeMessage
  split
  · exact .refl t
  · exact .announce _ t
  · split
    · split
      · exact .announce _ t
      · split <;> exact .announce _ t
    · exact .announce _ t

/-- So is an error of the stream. -/
theorem quiet_takeError (e : StreamError) (t : Turn ε σ τ) : Turn.Quiet S t (t.takeError e) := by
  unfold Turn.takeError
  split
  · exact .refl t
  · exact .announce _ t

/-- A message of the owner is written at most. -/
theorem quiet_send (m : DeviceMessage) (t : Turn ε σ τ) : Turn.Quiet S t (t.send S m).2 := by
  unfold Turn.send
  split
  · exact .refl t
  · exact .refl t
  split
  · exact .fail t _
  next key _ =>
    rcases key.encrypt S.suite m.payload t.tape with ⟨_ | sealed, tape⟩
    · exact .of_prepares (Turn.prepares_draw t tape)
    · have hwrite := (Turn.prepares_draw (S := S) t tape).trans
        (Turn.prepares_write (m.withPayload true sealed) .client { t with tape })
      dsimp only
      rcases hw : ({ t with tape } : Turn ε σ τ).write S (m.withPayload true sealed) .client with
        ⟨_ | _, t'⟩
      all_goals
        rw [hw] at hwrite
        exact .of_prepares hwrite

/-- An acceptance of the owner is quiet wherever it comes in. -/
theorem quiet_accept (t : Turn ε σ τ) : Turn.Quiet S t (t.accept S) := by
  unfold Turn.accept
  by_cases phase : t.phase = .handshaking
  case neg =>
    rw [if_neg fun h => phase (Phase.isHandshaking_iff.1 h)]
    exact .refl t
  rw [if_pos (Phase.isHandshaking_iff.2 phase)]
  split
  case h_3 => exact .fail t _
  all_goals
    next hkind _ => exact .attempt (Turn.quiet_accept (by rw [hkind]; rfl) phase)

/-- To close drops secrets and establishes nothing. -/
theorem quiet_close (t : Turn ε σ τ) : Turn.Quiet S t t.close := by
  unfold Turn.close
  split
  · next phase hphase =>
    obtain ⟨rfl, _⟩ := Phase.transition_eq_ok_iff.1 hphase
    refine ⟨⟨.refl t.store, [.listening false], rfl, ?_⟩, .inr (.inr rfl), fun h => (nomatch h),
      fun _ => ?_, t.returning_wipe⟩
    · intro a ha
      rw [List.mem_singleton.1 ha]
      rfl
    · exact ⟨fun hkey => absurd rfl hkey, fun hkey => absurd rfl hkey, fun h => (nomatch h),
        fun h => (nomatch h), fun _ => t.pendingKey_wipe⟩
  · exact .refl t

/-- Every call to a sound channel comes to one of the things listed. -/
theorem served_serve (i : Call) (sound : c.Sound) : Served S c i (c.serve S i) := by
  cases i with
  | arrived m operation =>
    cases operation with
    | handshake => exact served_takeHandshake m sound
    | client => exact .quiet (quiet_takeMessage m c.turn)
  | streamFailed e => exact .quiet (quiet_takeError e c.turn)
  | send m => exact .quiet (quiet_send m c.turn)
  | accept => exact .quiet (quiet_accept c.turn)
  | close => exact .quiet (quiet_close c.turn)

/-! ## Every run is sound -/

/-- However the last frame of an association is dealt with, the channel is sound then. -/
theorem sound_stored {payload : Bytes} {r : Except ErrorCode Unit} {t : Turn ε σ τ} (sound : c.Sound)
    (phase : c.phase = .handshaking) (h : Association.Stored S payload c.turn r t) :
    (t.settle r).toChannel.Sound := by
  cases h with
  | stored kind _ _ _ =>
    have hkey : c.key ≠ none := by
      rw [← sound.pending phase, show c.kind = _ from kind]
      exact Option.some_ne_none _
    exact ⟨fun _ => sound.finished hkey, fun _ => rfl, fun _ => hkey, fun h => (nomatch h),
      fun _ => rfl⟩
  | _ => exact Turn.sound_settle_error phase _

/-- Whatever the last frame comes to, the handshake is over. -/
theorem phase_settle_of_stored {payload : Bytes} {r : Except ErrorCode Unit} {t : Turn ε σ τ}
    (h : Association.Stored S payload c.turn r t) : (t.settle r).phase ≠ .handshaking := by
  cases h with
  | stored _ _ _ _ => exact fun h => nomatch h
  | _ => exact Turn.phase_fail_ne_handshaking _ _

/-- So it is however the proof of a device that comes back is dealt with. -/
theorem sound_resumed {device : Uuid} {payload : Bytes} {r : Except ErrorCode Unit}
    {t : Turn ε σ τ} (phase : c.phase = .handshaking) (returning : c.kind.returning = some device)
    (h : Reconnection.Resumed S device payload c.turn r t) : (t.settle r).toChannel.Sound := by
  cases h with
  | refused h => exact Turn.sound_settle_error (h.phase.trans phase) _
  | keyRefused agreed _ | unanswered agreed _ _ =>
    refine Turn.sound_settle_error ?_ _
    exact agreed.prepares.phase.trans phase
  | resumed agreed _ _ =>
    refine ⟨fun _ => rfl, fun _ => rfl, fun _ => Option.some_ne_none _, fun h => (nomatch h),
      fun _ => ?_⟩
    refine (Kind.pendingKey_of_duty agreed.prepares.duty).trans ?_
    show c.kind.pendingKey = none
    rcases hk : c.kind with _ | _
    · rw [hk] at returning
      cases returning
    · rfl

/-- Whatever the proof of a device that comes back comes to, the handshake is over. -/
theorem phase_settle_of_resumed {device : Uuid} {payload : Bytes} {r : Except ErrorCode Unit}
    {t : Turn ε σ τ} (h : Reconnection.Resumed S device payload c.turn r t) :
    (t.settle r).phase ≠ .handshaking := by
  cases h with
  | resumed _ _ _ => exact fun h => nomatch h
  | _ => exact Turn.phase_fail_ne_handshaking _ _

/-- So it is after any call. -/
theorem sound_served {i : Call} {t : Turn ε σ τ} (sound : c.Sound) (h : Served S c i t) :
    t.toChannel.Sound := by
  cases h with
  | quiet h => exact h.sound sound
  | final _ phase _ _ stored => exact sound_stored sound phase stored
  | resume _ phase _ returning resumed => exact sound_resumed phase returning resumed

/-- What a channel is for does not change in a call. -/
theorem returning_served {i : Call} {t : Turn ε σ τ} (h : Served S c i t) :
    t.kind.returning = c.kind.returning := by
  have hsettle : ∀ (r : Except ErrorCode Unit) (t : Turn ε σ τ),
      (t.settle r).kind.returning = t.kind.returning := by
    rintro (code | _) t
    · exact t.returning_fail code
    · rfl
  cases h with
  | quiet h => exact h.returning
  | final _ _ _ _ stored =>
    rw [hsettle]
    cases stored with
    | unnamed _ | keyless _ _ => rfl
    | keyRefused kind _ _ | secretRefused kind _ _ _ | stored kind _ _ _ =>
      rw [show c.kind = _ from kind]
      rfl
  | resume _ _ _ _ resumed =>
    rw [hsettle]
    cases resumed with
    | refused h => exact Kind.returning_of_duty h.duty
    | keyRefused agreed _ | unanswered agreed _ _ | resumed agreed _ _ =>
      exact Kind.returning_of_duty agreed.prepares.duty

/-- The phase moves on in a call, if it changes. -/
theorem leads_served {i : Call} {t : Turn ε σ τ} (h : Served S c i t) : c.phase.Leads t.phase := by
  cases h with
  | quiet h => exact h.leads
  | final _ phase _ _ _ | resume _ phase _ _ _ => exact .inr (.inl phase)

/-- A sound channel is sound after a call. -/
theorem sound_call (i : Call) (sound : c.Sound) : (c.call S i).2.Sound := by
  rw [call_channel]
  exact sound_served sound (served_serve i sound)

/-- Between calls nothing changes that soundness is about. -/
theorem sound_move (m : Move σ τ) (sound : c.Sound) : (c.move S m).2.Sound := by
  cases m with
  | call i => exact sound_call i sound
  | _ => exact ⟨sound.finished, sound.alive, sound.keyed, sound.pending, sound.spent⟩

/-- So it is after a run of any moves. -/
theorem sound_run (ms : List (Move σ τ)) (sound : c.Sound) : (c.run S ms).2.Sound :=
  run_induction (P := fun _ d => d.Sound) sound fun _ _ m _ hd => sound_move m hd

/-- In a move the phase goes on, if it changes. -/
theorem leads_move (m : Move σ τ) (sound : c.Sound) : c.phase.Leads (c.move S m).2.phase := by
  cases m with
  | call i =>
    show c.phase.Leads (c.call S i).2.phase
    rw [call_channel]
    exact leads_served (served_serve i sound)
  | _ => exact .inl rfl

/-- In a move what the channel is for does not change. -/
theorem returning_move (m : Move σ τ) (sound : c.Sound) :
    (c.move S m).2.kind.returning = c.kind.returning := by
  cases m with
  | call i =>
    show (c.call S i).2.kind.returning = c.kind.returning
    rw [call_channel]
    exact returning_served (served_serve i sound)
  | _ => rfl

/-- A channel stays what it was made for. -/
theorem returning_run (ms : List (Move σ τ)) (sound : c.Sound) :
    (c.run S ms).2.kind.returning = c.kind.returning := by
  have h : (c.run S ms).2.Sound ∧ (c.run S ms).2.kind.returning = c.kind.returning :=
    run_induction (P := fun _ d => d.Sound ∧ d.kind.returning = c.kind.returning) ⟨sound, rfl⟩
      fun _ _ m _ hd => ⟨sound_move m hd.1, (returning_move m hd.1).trans hd.2⟩
  exact h.2

/-! ## Channels as they are made -/

/-- The channels of first associations as they are made. -/
inductive NewAssociation : Channel ε σ τ → Prop where
  /-- One that the user confirms. -/
  | visual (engine : ε) (store : σ) (stream : τ) (tape : Tape) :
    NewAssociation (Channel.visual engine store stream tape).2
  /-- One that is confirmed out of band. -/
  | outOfBand {push : Bytes → Except OutOfBand.Error Unit} {engine : ε} {store : σ} {stream : τ}
    {tape : Tape} {acts : List Act} {c : Channel ε σ τ}
    (made : Channel.outOfBand push engine store stream tape = .ok (acts, c)) : NewAssociation c

/-- However an association is made, it has no key that waits and no device. -/
theorem NewAssociation.eq_ofKind {c : Channel ε σ τ} (h : NewAssociation c) :
    ∃ verification engine store stream tape,
      c = ofKind (.association verification none none) engine store stream tape := by
  cases h with
  | visual engine store stream tape => exact ⟨.visual, engine, store, stream, tape, rfl⟩
  | @outOfBand push engine store stream tape acts c made =>
    unfold Channel.outOfBand at made
    rcases hstart : OutOfBand.Cipher.start push tape with ⟨_ | cipher, tape'⟩
    · rw [hstart] at made
      cases made
    · rw [hstart] at made
      cases made
      exact ⟨.outOfBand cipher none, engine, store, stream, tape', rfl⟩

/-- A new association is sound. -/
theorem NewAssociation.sound {c : Channel ε σ τ} (h : NewAssociation c) : c.Sound := by
  obtain ⟨verification, engine, store, stream, tape, rfl⟩ := h.eq_ofKind
  exact sound_ofKind rfl engine store stream tape

/-- It is for no device that comes back. -/
theorem NewAssociation.returning {c : Channel ε σ τ} (h : NewAssociation c) :
    c.kind.returning = none := by
  obtain ⟨verification, engine, store, stream, tape, rfl⟩ := h.eq_ofKind
  rfl

variable (S) in
/-- The channels for the return of a device as they are made. -/
inductive NewReconnection (device : Uuid) : Channel ε σ τ → Prop where
  /-- One that does or does not expect an answer to a challenge. -/
  | made (expected : Option Bytes) (engine : ε) (store : σ) (stream : τ) (tape : Tape) :
    NewReconnection device (reconnection S device expected engine store stream tape).2

/-- A new channel for a return is sound. -/
theorem NewReconnection.sound {device : Uuid} {c : Channel ε σ τ} (h : NewReconnection S device c) :
    c.Sound := by
  cases h
  exact sound_ofKind rfl _ _ _ _

/-- It is for the return of the device that it was made for. -/
theorem NewReconnection.returning {device : Uuid} {c : Channel ε σ τ}
    (h : NewReconnection S device c) : c.kind.returning = some device := by
  cases h
  rfl

end Channel

end DevicePairing
