import DevicePairing.Proofs.Channel.Dispatch

/-!
# The upshot of a call

Seen from outside, only seven things can come of a call: the channel goes on as it was, shows a code,
agrees on a key, fails, is established on the word of a new device or of one that comes back, or is
closed. `Channel.Upshot` says for each of them what becomes of the stage, the phase, the keys and the
device, and which events observers are told of. `Channel.upshot_serve` derives it once from the places
where a call may end up, so that the invariants of a channel and the laws of its events follow by seven
cases each.

What a step does to the stage and the keys is known from the steps that only prepare; what is new here is
which events it leaves behind. Most steps leave none, since events depend on few kinds of things
(`Turn.dependsOn_events`).
-/

namespace DevicePairing

variable {ε σ τ : Type} {α β : Type}

/-! ## Events -/

namespace Turn

variable {S : Setting ε σ τ}

/-- Observers are told of nothing but what a step tells them, and that the channel is established. -/
theorem dependsOn_events : DependsOn S [.tell, .establish] Turn.events := by
  rintro x t t' h apart
  cases h <;> first | rfl | exact absurd (by decide) apart

/-- What the channel is for changes with nothing else. -/
theorem dependsOn_kind : DependsOn S [.kind] (fun t => t.kind) := by
  rintro x t t' h apart
  cases h <;> first | rfl | exact absurd List.mem_cons_self apart

end Turn

namespace Work

variable {S : Setting ε σ τ} {touches : List Touch}

/-- A step that succeeds has observers told of the given events, and one that gives up of nothing. -/
def Tells (es : List Event) (w : Work ε σ τ α) : Prop :=
  ∀ t, (w t).2.events = match (w t).1 with
    | .ok _ => t.events ++ es
    | .error _ => t.events

/-- Steps of which nobody is told may come before. -/
theorem Footprint.bind_tells {es : List Event} {x : Work ε σ τ α} {f : α → Work ε σ τ β}
    (hx : Footprint S touches x) (apart : ∀ y ∈ touches, y ∉ [Touch.tell, .establish])
    (hf : ∀ a, Tells es (f a)) : Tells es (x >>= f) := by
  intro t
  have hxt := hx.leaves Turn.dependsOn_events apart t
  rw [bind_apply]
  rcases h : x t with ⟨_ | a, t'⟩
  · rwa [h] at hxt
  · rw [h] at hxt
    dsimp only at hxt ⊢
    rw [← hxt]
    exact hf a t'

/-- Who gives up has told nobody of anything. -/
theorem Tells.throw_bind {es : List Event} (code : ErrorCode) (f : α → Work ε σ τ β) :
    Tells es (MonadExcept.throw code >>= f) := by
  intro t
  rw [bind_apply, throw_apply]

/-- To establish the channel is to have observers told so. -/
theorem tells_establish : Tells [.established] (establish : Work ε σ τ Unit) := by
  intro t
  unfold establish
  split <;> rfl

end Work

/-! ## What the handlers tell and leave -/

namespace Association

variable {S : Setting ε σ τ}

/-- The first frame leaves what the association is for as it is. -/
theorem kind_init (payload : Bytes) : Work.Leaves (fun t => t.kind) (init S payload) :=
  (asksFirst_init payload).footprint.leaves Turn.dependsOn_kind (by decide)

/-- The code is shown in the last step of all, so either nothing has happened or it is shown. -/
theorem showCode_cases (reply : Reply) (t : Turn ε σ τ) :
    (∃ code, (showCode reply : Work ε σ τ Unit) t = (.error code, t)) ∨
      ∃ listener code, (showCode reply : Work ε σ τ Unit) t = (.ok (), { t with
        stage := .verificationNeeded
        events := t.events ++ [.showCode listener code] }) := by
  unfold showCode
  by_cases hstage : reply.stage = .verificationNeeded
  case neg => exact .inl ⟨.invalidState, by simp [hstage, Work.bind_apply, Work.throw_apply]⟩
  rcases hcode : reply.code with _ | code
  · exact .inl ⟨.invalidVerification,
      by simp [hstage, Work.bind_apply, Work.require, Work.throw_apply]⟩
  rcases hlistener : t.codeListener with _ | listener
  · exact .inl ⟨.invalidState,
      by simp [hstage, hlistener, Work.bind_apply, Work.get_apply, Work.require, Work.throw_apply,
        Work.pure_apply]⟩
  by_cases hadmits : t.stage.admits .verificationNeeded = true
  · refine .inr ⟨listener, code, ?_⟩
    simp [hstage, hlistener, Work.bind_apply, Work.get_apply, Work.require,
      Work.pure_apply, Work.advance, hadmits, Work.announce, Turn.announce]
  · exact .inl ⟨.invalidState,
      by simp [hstage, hlistener, Work.bind_apply, Work.get_apply, Work.require,
        Work.pure_apply, Work.advance, hadmits]⟩

/-- The second frame of an association tells of nothing, or has a code shown. -/
theorem proceed_tells (payload : Bytes) (t : Turn ε σ τ) :
    (proceed S payload t).2.events = t.events ∨
      ∃ listener code, (proceed S payload t).1 = .ok () ∧
        (proceed S payload t).2.stage = .verificationNeeded ∧
        (proceed S payload t).2.events = t.events ++ [.showCode listener code] := by
  have hask := (Work.footprint_ask (S := S) (.proceed payload)).leaves Turn.dependsOn_events (by decide) t
  unfold proceed
  rw [Work.bind_apply]
  rcases ha : Work.ask S (.proceed payload) t with ⟨code | reply, t'⟩
  · rw [ha] at hask
    exact .inl hask
  rw [ha] at hask
  dsimp only at hask ⊢
  rw [Work.bind_apply, Work.get_apply, ← hask]
  dsimp only
  have hshow : ∀ {p}, (showCode reply : Work ε σ τ Unit) t' = p → p.2.events = t'.events ∨
      ∃ listener code, p.1 = .ok () ∧ p.2.stage = .verificationNeeded ∧
        p.2.events = t'.events ++ [.showCode listener code] := by
    rintro _ rfl
    rcases showCode_cases reply t' with ⟨code, h⟩ | ⟨listener, code, h⟩
    · exact .inl (by rw [h])
    · exact .inr ⟨listener, code, by rw [h], by rw [h], by rw [h]⟩
  rcases t'.kind with ⟨_ | ⟨cipher, code⟩, pendingKey, device⟩ | _
  · exact hshow rfl
  · refine .inl ?_
    exact (ends_sendCode cipher pendingKey device reply).1.leaves Turn.dependsOn_events (by decide) t'
  · exact hshow rfl

/-- Nobody is told that the code was accepted. -/
theorem events_accept : Work.Leaves Turn.events (accept S) :=
  asksFirst_accept.footprint.leaves Turn.dependsOn_events (by decide)

end Association

namespace Reconnection

variable {S : Setting ε σ τ}

/-- The second frame leaves what the reconnection is for as it is. -/
theorem kind_proceed (payload : Bytes) : Work.Leaves (fun t => t.kind) (proceed S payload) :=
  (asksFirst_proceed payload).footprint.leaves Turn.dependsOn_kind (by decide)

/-- So does the proof that the peer holds the stored key. -/
theorem kind_resume (device : Uuid) (payload : Bytes) :
    Work.Leaves (fun t => t.kind) (resume S device payload) :=
  (footprint_resume device payload).leaves Turn.dependsOn_kind (by decide)

/-- Of the resumption of a session observers are told when it is complete, and only then. -/
theorem tells_resume (device : Uuid) (payload : Bytes) :
    Work.Tells [.established] (resume S device payload) := by
  unfold resume
  refine (Work.footprint_readKey (S := S) _).bind_tells (by decide) fun found => ?_
  refine (Work.footprint_require (S := S) _ _).bind_tells (by decide) fun previous => ?_
  refine (Work.footprint_ask (S := S) _).bind_tells (by decide) fun reply => ?_
  dsimp only
  split
  · exact .throw_bind _ _
  refine (Work.footprint_require (S := S) _ _).bind_tells (by decide) fun key => ?_
  refine (Work.footprint_require (S := S) _ _).bind_tells (by decide) fun next => ?_
  refine (Work.footprint_saveKey (S := S) _ _).bind_tells (by decide) fun _ => ?_
  refine (Work.footprint_advance (S := S) _).bind_tells (by decide) fun _ => ?_
  refine (Work.footprint_setKey (S := S) _).bind_tells (by decide) fun _ => ?_
  exact (Work.footprint_sendPlain (S := S) _).bind_tells (by decide) fun _ => Work.tells_establish

end Reconnection

/-! ## The seven upshots -/

/-- A device that an association waits for is known from its duty. -/
theorem Channel.device_of_duty {c c' : Channel ε σ τ} (h : c'.kind.duty = c.kind.duty) :
    c'.device = c.device := by
  unfold device
  rcases hk : c.kind with _ | _ <;> rcases hk' : c'.kind with _ | _ <;> simp_all [Kind.duty]

/-- To set the key changes nothing about the device. -/
theorem Association.device_keyed {S : Setting ε σ τ} (key : SessionKey) (t : Turn ε σ τ) :
    (Association.keyed S key t).device = t.device := by
  unfold Association.keyed Channel.device
  rcases t.kind with _ | _ <;> rfl

/-- To drop the secrets does not forget the device. -/
theorem Turn.device_wipe (t : Turn ε σ τ) : t.wipe.device = t.device := by
  unfold wipe Channel.device
  rcases t.kind with ⟨_ | _, _, _⟩ | _ <;> rfl

/-- No stage comes after the last. -/
theorem Stage.rank_le_finished (s : Stage) : s.rank ≤ Stage.finished.rank :=
  Stage.admits_iff.1 s.admits_finished

/-- Nothing but the last stage is as late as it. -/
theorem Stage.eq_finished {s : Stage} (h : Stage.finished.rank ≤ s.rank) : s = .finished := by
  cases s <;> first | rfl | exact absurd h (by decide)

namespace Channel

/-- What may come of a call, seen from outside: the turn in which it is dealt with. -/
inductive Upshot (c : Channel ε σ τ) (t : Turn ε σ τ) : Prop where
  /-- The channel goes on as it was, perhaps a stage further. Observers are told of traffic at most: of
  refusals only if the channel has failed, and of nothing if it is closed. -/
  | goesOn (phase : t.phase = c.phase) (key : t.key = c.key) (duty : t.kind.duty = c.kind.duty)
    (rank : c.stage.rank ≤ t.stage.rank) (traffic : ∀ e ∈ t.events, e.isTraffic = true)
    (failed : ∀ code, c.phase = .failed code → ∀ e ∈ t.events, e.isRefusal = true)
    (closed : c.phase = .closed → t.events = [])
  /-- An association has its code shown. -/
  | shows {listener : ListenerId} {code : String} (before : c.phase = .handshaking)
    (phase : t.phase = .handshaking) (key : t.key = c.key) (duty : t.kind.duty = c.kind.duty)
    (inProgress : c.stage = .inProgress) (stage : t.stage = .verificationNeeded)
    (events : t.events = [.showCode listener code])
  /-- An association agrees on its key, which then waits for the last frame. -/
  | agrees {key : SessionKey} (before : c.phase = .handshaking) (phase : t.phase = .handshaking)
    (returning : c.kind.returning = none) (fresh : c.key = none) (keyed : t.key = some key)
    (device : t.device = c.device) (stage : t.stage = .finished) (events : t.events = [])
  /-- The handshake is given up. Observers are told so last, and before of refusals at most. -/
  | fails {code : ErrorCode} {es : List Event} (before : c.phase = .handshaking)
    (phase : t.phase = .failed code) (key : t.key = none) (device : t.device = c.device)
    (rank : c.stage.rank ≤ t.stage.rank) (refusals : ∀ e ∈ es, e.isRefusal = true)
    (events : t.events = es ++ [.failed code])
  /-- An association stores the key and the secret of the device its last frame names, and is
  established. -/
  | stores {key : SessionKey} {device : Uuid} {secret : Bytes} (before : c.phase = .handshaking)
    (phase : t.phase = .established) (returning : c.kind.returning = none)
    (pending : c.kind.pendingKey = some key) (keyed : t.key = c.key)
    (known : t.device = some device) (stage : t.stage = c.stage)
    (events : t.events = [.deviceId device, .established])
    (acts : t.acts = [.keySaved device key.toBytes (.ok ()), .secretSaved device secret (.ok ())])
  /-- A device comes back with a new key, and the channel is established. -/
  | resumes {key : SessionKey} {device : Uuid} (before : c.phase = .handshaking)
    (phase : t.phase = .established) (returning : c.kind.returning = some device)
    (fresh : c.key = none) (keyed : t.key = some key) (known : t.device = c.device)
    (stage : t.stage = .finished) (events : t.events = [.established])
  /-- The channel is closed. -/
  | closes (before : c.phase ≠ .closed) (phase : t.phase = .closed) (key : t.key = none)
    (device : t.device = c.device) (stage : t.stage = c.stage) (events : t.events = [])

variable {S : Setting ε σ τ} {c : Channel ε σ τ} {t : Turn ε σ τ}

/-- Nothing happens, or nothing but preparation. -/
theorem upshot_of_prepares (h : Turn.Prepares S c.turn t) (events : t.events = []) : Upshot c t := by
  refine .goesOn h.phase h.key h.duty h.rank ?_ ?_ fun _ => events
  · rw [events]
    exact List.forall_mem_nil _
  · rw [events]
    exact fun _ _ => List.forall_mem_nil _

/-- To give up is all that matters of a call that does so. -/
theorem upshot_fail {code : ErrorCode} (before : c.phase = .handshaking)
    (phase : t.phase = .handshaking) (device : t.device = c.device)
    (rank : c.stage.rank ≤ t.stage.rank) (refusals : ∀ e ∈ t.events, e.isRefusal = true) :
    Upshot c (t.fail code) := by
  rw [Turn.fail_of_handshaking phase]
  exact .fails before rfl rfl (t.device_wipe.trans device) rank refusals rfl

/-- A step that only prepares and tells nothing either goes on or fails. -/
theorem upshot_settle {r : Except ErrorCode Unit} (before : c.phase = .handshaking)
    (h : Turn.Prepares S c.turn t) (events : t.events = []) : Upshot c (t.settle r) := by
  cases r with
  | ok _ => exact upshot_of_prepares h events
  | error code =>
    refine upshot_fail before (h.phase.trans before) (device_of_duty h.duty) h.rank ?_
    rw [events]
    exact List.forall_mem_nil _

/-- A step that only prepares, and in whose footprint nobody is told of anything, either goes on or fails. -/
theorem upshot_attempt {w : Work ε σ τ Unit} {touches : List Touch} (before : c.phase = .handshaking)
    (footprint : Work.Footprint S touches w) (mild : ∀ x ∈ touches, x ∈ Touch.preparing)
    (silent : ∀ x ∈ touches, x ∉ [Touch.tell, .establish]) : Upshot c (c.turn.attempt w) := by
  rw [Turn.attempt_eq_settle]
  exact upshot_settle before (footprint.prepares mild c.turn)
    (footprint.leaves Turn.dependsOn_events silent c.turn)

/-- The acceptance of a code leads to a key, or the channel fails. -/
theorem upshot_accept (before : c.phase = .handshaking) (returning : c.kind.returning = none) :
    Upshot c (c.turn.attempt (Association.accept S)) := by
  have hevents := Association.events_accept (S := S) c.turn
  have haccepted := Association.accepted_accept (S := S) c.turn
  rw [Turn.attempt_eq_settle]
  generalize (Association.accept S c.turn).1 = r, (Association.accept S c.turn).2 = t at *
  cases haccepted with
  | refused h => exact upshot_settle before h hevents
  | @keyed _ key _ _ _ fresh =>
    -- the key is set, and it depends on the last write whether it stays
    have hsend := Work.prepares_sendSealed (S := S) (S.store.uniqueId c.turn.store).toBytes
      (Association.keyed S key c.turn)
    generalize (Work.sendSealed S _ (Association.keyed S key c.turn)).1 = r,
      (Work.sendSealed S _ (Association.keyed S key c.turn)).2 = t at *
    have hphase : t.phase = .handshaking := hsend.phase.trans before
    have hdevice : t.device = c.device :=
      (device_of_duty hsend.duty).trans (Association.device_keyed key c.turn)
    have hstage : t.stage = .finished := Stage.eq_finished hsend.rank
    cases r with
    | ok _ =>
      exact .agrees before hphase returning fresh hsend.key hdevice hstage hevents
    | error code =>
      refine upshot_fail before hphase hdevice ?_ ?_
      · rw [hstage]
        exact c.stage.rank_le_finished
      · rw [hevents]
        exact List.forall_mem_nil _

/-- The second frame has a code shown, lets the handshake go on, or makes the channel fail. -/
theorem upshot_proceed (payload : Bytes) (before : c.phase = .handshaking)
    (stage : c.stage = .inProgress) : Upshot c (c.turn.attempt (Association.proceed S payload)) := by
  have hprepares := Association.prepares_proceed (S := S) payload c.turn
  rw [Turn.attempt_eq_settle]
  rcases Association.proceed_tells (S := S) payload c.turn with h | ⟨listener, code, hok, hstage, h⟩
  · exact upshot_settle before hprepares h
  · rw [hok]
    exact .shows before (hprepares.phase.trans before) hprepares.key hprepares.duty stage hstage h

/-- The peer's code is accepted with the same upshot as by the user, or makes the channel fail. -/
theorem upshot_peerCode (payload : Bytes) (before : c.phase = .handshaking)
    (returning : c.kind.returning = none) :
    Upshot c (c.turn.attempt (Association.peerCode S payload)) := by
  rw [Turn.attempt_eq_settle]
  rcases Association.peerCode_cases (S := S) payload c.turn with ⟨code, h⟩ | h
  · rw [h]
    exact upshot_settle (S := S) before (.refl c.turn) rfl
  · rw [h, ← Turn.attempt_eq_settle]
    exact upshot_accept before returning

/-- The last frame establishes the channel with the device it names, or makes it fail. -/
theorem upshot_final (payload : Bytes) (before : c.phase = .handshaking)
    (returning : c.kind.returning = none) :
    Upshot c (c.turn.attempt (Association.final S payload)) := by
  have hstored := Association.stored_final (S := S) payload (t := c.turn) before
  have hkept : ∀ {t : Turn ε σ τ} {verification key former},
      c.kind = .association verification (some key) former →
      t.kind = .association verification none former → t.device = c.device := by
    intro t verification key former hkind ht
    rw [Channel.device, Channel.device, hkind, ht]
  have hnone : ∀ e ∈ ([] : List Event), e.isRefusal = true := List.forall_mem_nil _
  rw [Turn.attempt_eq_settle]
  generalize (Association.final S payload c.turn).1 = r, (Association.final S payload c.turn).2 = t
    at hstored
  cases hstored with
  | unnamed _ | keyless _ _ => exact upshot_settle (S := S) before (.refl c.turn) rfl
  | keyRefused kind _ _ | secretRefused kind _ _ _ =>
    exact upshot_fail before before (hkept kind rfl) (Nat.le_refl _) hnone
  | @stored _ key _ _ _ _ _ _ kind _ _ _ =>
    exact .stores before rfl returning (by rw [show c.kind = _ from kind]; rfl) rfl rfl rfl rfl rfl

/-- The proof establishes the channel, or makes it fail. -/
theorem upshot_resume {device : Uuid} (payload : Bytes) (before : c.phase = .handshaking)
    (returning : c.kind.returning = some device) (fresh : c.key = none) :
    Upshot c (c.turn.attempt (Reconnection.resume S device payload)) := by
  have hresumed := Reconnection.resumed_resume (S := S) device payload (t := c.turn) before fresh
  have htells := Reconnection.tells_resume (S := S) device payload c.turn
  have hnone : ∀ {t : Turn ε σ τ}, t.events = [] → ∀ e ∈ t.events, e.isRefusal = true := by
    intro t ht
    rw [ht]
    exact List.forall_mem_nil _
  rw [Turn.attempt_eq_settle]
  generalize (Reconnection.resume S device payload c.turn).1 = r,
    (Reconnection.resume S device payload c.turn).2 = t at *
  cases hresumed with
  | refused h => exact upshot_settle before h htells
  | keyRefused agreed _ =>
    exact upshot_fail before (agreed.prepares.phase.trans before)
      (device_of_duty agreed.prepares.duty) agreed.prepares.rank (hnone htells)
  | unanswered agreed _ _ =>
    exact upshot_fail before (agreed.prepares.phase.trans before)
      (device_of_duty agreed.prepares.duty) c.stage.rank_le_finished (hnone htells)
  | resumed agreed _ _ =>
    exact .resumes before rfl returning fresh rfl (device_of_duty agreed.prepares.duty) rfl htells

/-- The upshot of the step that a frame sets off. -/
theorem upshot_setsOff {payload : Bytes} {w : Work ε σ τ Unit} (sound : c.Sound)
    (before : c.phase = .handshaking) (h : SetsOff S c payload w) : Upshot c (c.turn.attempt w) := by
  cases h with
  | init _ _ =>
    exact upshot_attempt before (Association.asksFirst_init payload).footprint (by decide) (by decide)
  | verify _ kind =>
    rw [Turn.attempt_eq_settle]
    exact upshot_settle before (Reconnection.prepares_verify payload kind)
      ((Reconnection.footprint_verify _ _ payload).leaves Turn.dependsOn_events (by decide) c.turn)
  | proceed stage _ => exact upshot_proceed payload before stage
  | proceedReturning _ _ =>
    exact upshot_attempt before (Reconnection.asksFirst_proceed payload).footprint (by decide) (by decide)
  | peerCode _ kind => exact upshot_peerCode payload before kind
  | final _ kind => exact upshot_final payload before kind
  | resume _ kind =>
    exact upshot_resume payload before kind (sound.key_of_returning before kind)
  | stray _ => exact upshot_attempt before (.throw _ : Work.Footprint S [] _) nofun nofun

/-- Wherever a call ends up, it has one of these upshots. -/
theorem upshot_dispatched {i : Call} (sound : c.Sound) (h : Dispatched S c i t) : Upshot c t := by
  cases h with
  | idle => exact upshot_of_prepares (S := S) (.refl c.turn) rfl
  | @told _ e notClosed traffic failed =>
    refine .goesOn rfl rfl rfl (Nat.le_refl _) ?_ ?_ fun h => absurd h notClosed
    · intro e' he'
      rw [List.mem_singleton.1 he']
      exact traffic
    · intro code hcode e' he'
      rw [List.mem_singleton.1 he']
      exact failed code hcode
  | sent prepares events => exact upshot_of_prepares prepares events
  | unreadable before =>
    refine upshot_fail before before rfl (Nat.le_refl _) fun e he => ?_
    rw [List.mem_singleton.1 he]
    rfl
  | premature before =>
    exact upshot_fail before before rfl (Nat.le_refl _) (List.forall_mem_nil _)
  | frame before _ step => exact upshot_setsOff sound before step
  | accepted before kind _ => exact upshot_accept before kind
  | closed notClosed => exact .closes notClosed rfl rfl c.turn.device_wipe rfl rfl

/-- Of every call to a sound channel one of the seven things comes. -/
theorem upshot_serve (i : Call) (sound : c.Sound) : Upshot c (c.serve S i) :=
  upshot_dispatched sound (dispatched_serve i c)

/-- A move of any kind has one of the seven upshots, and the outcome of the move is that of the turn. -/
theorem upshot_move (m : Move σ τ) (sound : c.Sound) :
    ∃ t : Turn ε σ τ, Upshot c t ∧ t.toChannel = (c.move S m).2 ∧
      t.events = (c.move S m).1.events ∧ t.acts = (c.move S m).1.acts := by
  -- between calls the channel has nothing to do, and what it is and what it has reached stays
  have idle : (c.move S m).1 = .idle → (c.move S m).2.kind = c.kind →
      (c.move S m).2.stage = c.stage → (c.move S m).2.phase = c.phase →
      (c.move S m).2.key = c.key → ∃ t : Turn ε σ τ, Upshot c t ∧
        t.toChannel = (c.move S m).2 ∧ t.events = (c.move S m).1.events ∧
        t.acts = (c.move S m).1.acts := by
    intro hidle hkind hstage hphase hkey
    refine ⟨(c.move S m).2.turn, ?_, rfl, by rw [hidle]; rfl, by rw [hidle]; rfl⟩
    exact .goesOn hphase hkey (congrArg Kind.duty hkind) (Nat.le_of_eq (congrArg Stage.rank hstage.symm))
      (List.forall_mem_nil _) (fun _ _ => List.forall_mem_nil _) fun _ => rfl
  cases m with
  | call i =>
    exact ⟨c.serve S i, upshot_serve i sound, (c.call_channel S i).symm, (c.call_events S i).symm,
      (c.call_acts S i).symm⟩
  | _ => exact idle rfl rfl rfl rfl rfl

end Channel

end DevicePairing
