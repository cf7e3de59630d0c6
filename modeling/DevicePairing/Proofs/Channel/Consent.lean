import DevicePairing.Proofs.Channel.Confirmation
import DevicePairing.Proofs.Channel.Lockstep
import Mathlib.Data.List.Induction

/-!
# The consent of the user

In the visual flow nothing but the user stands between two devices and a key. `Association.Consented` says
what that takes, in every run and with every engine whose first step does not skip the second: a key is
asked for and set only when the user accepts the code, and only after the code that the engine has reported
was handed to a listener to be shown. No frames bring a key without that, and none establish the channel
(`Association.consented_run`).

The engine may report any stage with the second frame, but the channel goes on only if the codes are to be
compared, there is a code, and there is somebody to show it to. `Association.Consenting` is the invariant:
as long as there is no key, either the second frame is still to come or the code was shown.
-/

namespace DevicePairing

variable {ε σ τ : Type} {S : Setting ε σ τ}

/-- An engine whose first step, when it succeeds, leads to where the second frame is due. -/
def Engine.Gradual (E : Engine ε) : Prop :=
  ∀ frame e t reply, (E.answer (.init frame) e t).1 = .ok reply → reply.stage = .inProgress

/-- A responder is such an engine, since after the first frame it waits for the second. -/
theorem Responder.gradual_engine (suite : Suite) : (Responder.engine suite).Gradual := by
  intro frame r t reply accepted
  have answered := answered_answer (S := suite) (.init frame) r t
  rw [accepted] at answered
  generalize ((engine suite).answer (.init frame) r t).2.1 = r' at answered
  cases answered with
  | opened _ _ _ _ _ => rfl

/-- Whether a channel is for an association that the user confirms. -/
def Kind.IsVisual (k : Kind) : Prop := ∃ pendingKey device, k = .association .visual pendingKey device

/-- The visual flow is one of associations. -/
theorem Kind.IsVisual.returning {k : Kind} (h : k.IsVisual) : k.returning = none := by
  obtain ⟨pendingKey, device, rfl⟩ := h
  rfl

namespace Channel

/-- A call moves the channel as the turn in which it is dealt with. -/
theorem move_of_served {c : Channel ε σ τ} {i : Call} {t : Turn ε σ τ} (served : c.serve S i = t) :
    (c.move S (.call i)).2 = t.toChannel ∧ (c.move S (.call i)).1.acts = t.acts ∧
      (c.move S (.call i)).1.events = t.events := by
  rw [← served]
  exact ⟨call_channel .., call_acts .., call_events ..⟩

/-- From one state of a channel to another a key is set that was not there. -/
def Sets (c c' : Channel ε σ τ) : Prop := ∃ key, c'.key = some key ∧ c.key ≠ some key

/-- A channel that had no key and has one now has set it. -/
theorem Sets.of_fresh {c c' : Channel ε σ τ} {key : SessionKey} (fresh : c.key = none)
    (keyed : c'.key = some key) : Sets c c' := by
  refine ⟨key, keyed, ?_⟩
  rw [fresh]
  exact (Option.some_ne_none key).symm

/-- A key is only set where there was none. -/
theorem Sets.fresh {c : Channel ε σ τ} {m : Move σ τ} (h : Sets c (c.move S m).2) (sound : c.Sound) :
    c.key = none := by
  obtain ⟨key, hkey, hdiffers⟩ := h
  obtain ⟨t, hupshot, hchannel, -, -⟩ := upshot_move (S := S) m sound
  rw [← hchannel] at hkey
  cases hupshot with
  | goesOn _ same _ _ _ _ _ | shows _ _ same _ _ _ _ | stores _ _ _ _ same _ _ _ _ =>
    exact absurd (same.symm.trans hkey) hdiffers
  | fails _ _ gone _ _ _ _ | closes _ _ gone _ _ _ => cases gone.symm.trans hkey
  | agrees _ _ _ fresh _ _ _ _ | resumes _ _ _ fresh _ _ _ _ => exact fresh

/-- A key that is there stays there as long as the handshake lasts. -/
theorem fresh_of_lasts {c : Channel ε σ τ} {m : Move σ τ} (sound : c.Sound)
    (lasts : (c.move S m).2.phase = .handshaking) (fresh : (c.move S m).2.key = none) :
    c.key = none := by
  obtain ⟨t, hupshot, hchannel, -, -⟩ := upshot_move (S := S) m sound
  rw [← hchannel] at lasts fresh
  cases hupshot with
  | goesOn _ same _ _ _ _ _ | shows _ _ same _ _ _ _ => exact same.symm.trans fresh
  | agrees _ _ _ fresh' _ _ _ _ => exact fresh'
  | fails _ phase _ _ _ _ _ | stores _ phase _ _ _ _ _ _ _ => cases lasts.symm.trans phase
  | resumes _ phase _ _ _ _ _ _ | closes _ phase _ _ _ _ => cases lasts.symm.trans phase

end Channel

namespace Association

variable {c₀ : Channel ε σ τ} {ms : List (Channel.Move σ τ)}

/-! ## What the steps of the visual flow have done -/

/-- The first frame, if the handshake goes on, leads to where the second is due. -/
theorem stage_init (gradual : S.engine.Gradual) {payload : Bytes} {t t' : Turn ε σ τ}
    (h : init S payload t = (.ok (), t')) : t'.stage = .inProgress := by
  have hconsults := (asksFirst_init (S := S) payload).consults (by decide)
  rcases hconsults t with ⟨hfailed, -⟩ | ⟨_, tape, rfl, -, hreached⟩
  · exact absurd (congrArg Prod.fst h) hfailed
  · obtain ⟨reply, hreply, hstage⟩ := hreached (congrArg Prod.fst h)
    rw [h] at hstage
    exact hstage.trans (gradual payload t.engine tape reply hreply)

/-- A code that is shown was reported, with the stage at which codes are compared, and is shown to
somebody. -/
theorem showCode_of_ok {reply : Reply} {t t' : Turn ε σ τ} (h : showCode reply t = (.ok (), t')) :
    ∃ listener code, reply.stage = .verificationNeeded ∧ reply.code = some code ∧
      t.codeListener = some listener ∧
      t' = { t with stage := .verificationNeeded, events := t.events ++ [.showCode listener code] } := by
  unfold showCode at h
  by_cases hstage : reply.stage = .verificationNeeded
  case neg =>
    rw [if_pos hstage] at h
    cases h
  rw [if_neg (not_not_intro hstage)] at h
  obtain ⟨code, t₁, hcode, h₁⟩ := Work.bind_of_ok h
  obtain ⟨hreported, rfl⟩ := Work.require_of_ok hcode
  rw [Work.bind_apply, Work.get_apply] at h₁
  obtain ⟨listener, t₂, hlistener, h₂⟩ := Work.bind_of_ok h₁
  obtain ⟨hlistens, rfl⟩ := Work.require_of_ok hlistener
  obtain ⟨_, t₃, hadvance, hannounce⟩ := Work.bind_of_ok h₂
  obtain rfl := Work.advance_of_ok hadvance
  rw [hstage] at hannounce
  cases hannounce
  exact ⟨listener, code, hstage, hreported, hlistens, rfl⟩

/-- What the second frame leaves behind in the visual flow, if the handshake goes on. -/
theorem proceed_visual_of_ok {payload : Bytes} {t t' : Turn ε σ τ} (visual : t.kind.IsVisual)
    (h : proceed S payload t = (.ok (), t')) :
    ∃ reply listener code, reply.stage = .verificationNeeded ∧ reply.code = some code ∧
      t.codeListener = some listener ∧ t'.kind = t.kind ∧ t'.stage = .verificationNeeded ∧
      t'.acts = t.acts ++ [.asked (.proceed payload) (.ok reply)] ∧
      t'.events = t.events ++ [.showCode listener code] := by
  obtain ⟨pendingKey, device, kind⟩ := visual
  obtain ⟨reply, t₁, hask, h₁⟩ := Work.bind_of_ok h
  obtain ⟨hkind, hacts⟩ := Work.ask_of_ok hask
  have hlistener : t₁.codeListener = t.codeListener := congrArg (·.2.codeListener) hask.symm
  have hevents : t₁.events = t.events := congrArg (·.2.events) hask.symm
  rw [Work.bind_apply, Work.get_apply] at h₁
  simp only [hkind, kind] at h₁
  obtain ⟨listener, code, hstage, hreported, hlistens, rfl⟩ := showCode_of_ok h₁
  exact ⟨reply, listener, code, hstage, hreported, hlistener.symm.trans hlistens, hkind, rfl, hacts,
    congrArg (· ++ [.showCode listener code]) hevents⟩

/-! ## The code is shown -/

variable (S) in
/-- In a run, a frame came in for which the engine took in the second frame and reported a code, and the
code was handed to the listener that was set at the time. That was the only second frame of the run. -/
def Shown (c₀ : Channel ε σ τ) (ms : List (Channel.Move σ τ)) : Prop :=
  ∃ before after message listener reply code,
    ms = before ++ .call (.arrived message .handshake) :: after ∧
    (c₀.run S before).2.codeListener = some listener ∧
    reply.stage = .verificationNeeded ∧ reply.code = some code ∧
    ((c₀.run S before).2.call S (.arrived message .handshake)).1 =
      ⟨.ok (), [.asked (.proceed message.payload) (.ok reply)], [.showCode listener code]⟩ ∧
    (Outcome.actsOf (c₀.run S ms).1).filter Act.isProceed =
      [.asked (.proceed message.payload) (.ok reply)]

variable (S) in
/-- How far the consent has come before there is a key. -/
inductive Consenting (c₀ : Channel ε σ τ) (ms : List (Channel.Move σ τ)) : Prop where
  /-- The second frame is still to come. -/
  | unshown (visual : (c₀.run S ms).2.kind.IsVisual)
    (early : (c₀.run S ms).2.stage.rank ≤ Stage.inProgress.rank)
    (unasked : ∀ a ∈ Outcome.actsOf (c₀.run S ms).1, a.isProceed = false)
  /-- The code was shown. -/
  | shown (visual : (c₀.run S ms).2.kind.IsVisual)
    (stage : (c₀.run S ms).2.stage = .verificationNeeded) (shown : Shown S c₀ ms)

variable {m : Channel.Move σ τ}

/-- A code that was shown was shown, whatever happens then, and the second frame is not taken in again. -/
theorem Shown.concat (h : Shown S c₀ ms)
    (unasked : ∀ a ∈ ((c₀.run S ms).2.move S m).1.acts, a.isProceed = false) :
    Shown S c₀ (ms ++ [m]) := by
  obtain ⟨before, after, message, listener, reply, code, hms, hlistener, hstage, hcode, houtcome,
    honly⟩ := h
  refine ⟨before, after ++ [m], message, listener, reply, code, by simp [hms], hlistener, hstage,
    hcode, houtcome, ?_⟩
  have hnone : ((c₀.run S ms).2.move S m).1.acts.filter Act.isProceed = [] := by simpa using unasked
  rw [Channel.acts_concat, List.filter_append, honly, hnone, List.append_nil]

/-- However far the consent has come, the flow is the visual one. -/
theorem Consenting.visual (h : Consenting S c₀ ms) : (c₀.run S ms).2.kind.IsVisual := by
  cases h with
  | unshown visual _ _ | shown visual _ _ => exact visual

/-- A move after which no second frame was taken in, and that leaves the stage early, leaves the code to be
shown. -/
theorem Consenting.unshown_concat (kind : ((c₀.run S ms).2.move S m).2.kind = (c₀.run S ms).2.kind)
    (early : ((c₀.run S ms).2.move S m).2.stage.rank ≤ Stage.inProgress.rank)
    (visual : (c₀.run S ms).2.kind.IsVisual)
    (unasked : ∀ a ∈ Outcome.actsOf (c₀.run S ms).1, a.isProceed = false)
    (unasked' : ∀ a ∈ ((c₀.run S ms).2.move S m).1.acts, a.isProceed = false) :
    Consenting S c₀ (ms ++ [m]) := by
  refine .unshown ?_ ?_ fun a ha => ?_
  · rw [Channel.run_concat, kind]
    exact visual
  · rw [Channel.run_concat]
    exact early
  · rw [Channel.acts_concat] at ha
    exact (List.mem_append.1 ha).elim (unasked a) (unasked' a)

/-- A move that asks for no second frame and leaves the stage as it is leaves the consent where it is. -/
theorem Consenting.keep (h : Consenting S c₀ ms)
    (kind : ((c₀.run S ms).2.move S m).2.kind = (c₀.run S ms).2.kind)
    (stage : ((c₀.run S ms).2.move S m).2.stage = (c₀.run S ms).2.stage)
    (unasked : ∀ a ∈ ((c₀.run S ms).2.move S m).1.acts, a.isProceed = false) :
    Consenting S c₀ (ms ++ [m]) := by
  cases h with
  | unshown visual early unasked' =>
    exact unshown_concat kind (stage ▸ early) visual unasked' unasked
  | shown visual stage' shown =>
    refine .shown ?_ ?_ (shown.concat unasked)
    · rw [Channel.run_concat, kind]
      exact visual
    · rw [Channel.run_concat]
      exact stage.trans stage'

/-- The first frame leads to where the second is due. -/
theorem Consenting.init (gradual : S.engine.Gradual) (h : Consenting S c₀ ms) {i : Call}
    {payload : Bytes} (stage : (c₀.run S ms).2.stage = .unknown)
    (served : (c₀.run S ms).2.serve S i = (c₀.run S ms).2.turn.attempt (init S payload))
    (lasts : ((c₀.run S ms).2.turn.attempt (Association.init S payload)).phase = .handshaking) :
    Consenting S c₀ (ms ++ [.call i]) := by
  obtain ⟨hchannel, hacts, -⟩ := Channel.move_of_served served
  have hok := Turn.attempt_of_lasts lasts
  have hkind := kind_init (S := S) payload (c₀.run S ms).2.turn
  rw [hok] at hkind
  cases h with
  | unshown visual _ unasked =>
    refine unshown_concat (by rw [hchannel]; exact hkind) ?_ visual unasked fun a ha => ?_
    · rw [hchannel]
      exact Nat.le_of_eq (congrArg Stage.rank (stage_init gradual hok))
    · rw [hacts, ← served] at ha
      refine Bool.eq_false_iff.2 fun hproceed => ?_
      cases stage.symm.trans (Channel.stage_of_isProceed ha hproceed)
  | shown _ stage' _ => cases stage.symm.trans stage'

/-- The second frame has the code shown. -/
theorem Consenting.proceed (h : Consenting S c₀ ms) {message : DeviceMessage}
    (stage : (c₀.run S ms).2.stage = .inProgress)
    (served : (c₀.run S ms).2.serve S (.arrived message .handshake) =
      (c₀.run S ms).2.turn.attempt (proceed S message.payload))
    (lasts : ((c₀.run S ms).2.turn.attempt (Association.proceed S message.payload)).phase =
      .handshaking) :
    Consenting S c₀ (ms ++ [.call (.arrived message .handshake)]) := by
  obtain ⟨hchannel, hacts, hevents⟩ := Channel.move_of_served served
  cases h with
  | unshown visual _ unasked =>
    obtain ⟨reply, listener, code, hreached, hcode, hlistener, hkind, hstage, hdone, htold⟩ :=
      proceed_visual_of_ok visual (Turn.attempt_of_lasts lasts)
    have hnone : (Outcome.actsOf (c₀.run S ms).1).filter Act.isProceed = [] := by simpa using unasked
    have houtcome : ((c₀.run S ms).2.call S (.arrived message .handshake)).1 =
        ⟨.ok (), [.asked (.proceed message.payload) (.ok reply)], [.showCode listener code]⟩ :=
      congr (congrArg (Outcome.mk (.ok ())) (hacts.trans hdone)) (hevents.trans htold)
    refine .shown ?_ ?_ ⟨ms, [], message, listener, reply, code, rfl, hlistener, hreached, hcode,
      houtcome, ?_⟩
    · rw [Channel.run_concat, hchannel, hkind]
      exact visual
    · rw [Channel.run_concat, hchannel]
      exact hstage
    · rw [Channel.acts_concat, hacts, hdone, List.filter_append, hnone]
      rfl
  | shown _ stage' _ => cases stage.symm.trans stage'

/-- A frame sets off a step after which the handshake goes on: no step but the first two is open to it as
long as there is no key. -/
theorem Consenting.frame (gradual : S.engine.Gradual) (h : Consenting S c₀ ms)
    (fresh : (c₀.run S ms).2.key = none) {message : DeviceMessage} {payload : Bytes}
    {w : Work ε σ τ Unit} (phase : (c₀.run S ms).2.phase = .handshaking)
    (opens : (c₀.run S ms).2.Opens S message payload)
    (step : Channel.SetsOff S (c₀.run S ms).2 payload w)
    (served : (c₀.run S ms).2.serve S (.arrived message .handshake) = (c₀.run S ms).2.turn.attempt w)
    (lasts : ((c₀.run S ms).2.turn.attempt w).phase = .handshaking) :
    Consenting S c₀ (ms ++ [.call (.arrived message .handshake)]) := by
  have hreturning := h.visual.returning
  cases step with
  | init stage _ => exact h.init gradual stage served lasts
  | proceed stage _ =>
    obtain ⟨-, rfl⟩ := opens.plain_of_fresh fresh
    exact h.proceed stage served lasts
  | peerCode _ _ =>
    -- in the visual flow we have sent no code that the peer's could be compared with
    obtain ⟨pendingKey, device, hkind⟩ := h.visual
    have hrefused : peerCode S payload (c₀.run S ms).2.turn = (.error .invalidState, _) :=
      peerCode_of_codeless fun cipher code pendingKey' device' hcode =>
        nomatch hkind.symm.trans hcode
    cases (Turn.attempt_of_lasts lasts).symm.trans hrefused
  | final _ _ =>
    rw [Turn.attempt_eq_settle] at lasts
    exact absurd lasts (Channel.phase_settle_of_stored (stored_final payload phase))
  | verify _ kind =>
    rw [kind] at hreturning
    cases hreturning
  | proceedReturning _ kind | resume _ kind => cases hreturning.symm.trans kind
  | stray _ => exact nomatch Turn.attempt_of_lasts lasts

/-- As long as the handshake lasts and there is no key, every move leaves the consent accounted for. -/
theorem Consenting.move (gradual : S.engine.Gradual) (h : Consenting S c₀ ms)
    (fresh : (c₀.run S ms).2.key = none)
    (lasts : ((c₀.run S ms).2.move S m).2.phase = .handshaking)
    (unkeyed : ((c₀.run S ms).2.move S m).2.key = none) : Consenting S c₀ (ms ++ [m]) := by
  cases m with
  | call i =>
    have hdispatched := Channel.dispatched_serve (S := S) i (c₀.run S ms).2
    generalize hserved : (c₀.run S ms).2.serve S i = t at hdispatched
    obtain ⟨hchannel, hacts, -⟩ := Channel.move_of_served hserved
    rw [hchannel] at lasts unkeyed
    cases hdispatched with
    | idle | told _ _ _ =>
      refine h.keep (by rw [hchannel]; rfl) (by rw [hchannel]; rfl) ?_
      rw [hacts]
      exact List.forall_mem_nil _
    | sent _ _ keyed _ _ => exact absurd fresh keyed
    | unreadable _ | premature _ => exact absurd lasts (Turn.phase_fail_ne_handshaking _ _)
    | frame phase opens step => exact h.frame gradual fresh phase opens step hserved lasts
    | accepted _ _ _ =>
      obtain ⟨key, agreed⟩ := Channel.agreed_of_lasts lasts
      cases agreed.keyed.symm.trans unkeyed
    | closed _ => cases lasts
  | _ => exact h.keep rfl rfl (List.forall_mem_nil _)

/-- As long as the handshake lasts and there is no key, the consent is accounted for. -/
theorem consenting_run (gradual : S.engine.Gradual) (sound : c₀.Sound) (start : Consenting S c₀ [])
    (ms : List (Channel.Move σ τ)) (lasts : (c₀.run S ms).2.phase = .handshaking)
    (fresh : (c₀.run S ms).2.key = none) : Consenting S c₀ ms := by
  induction ms using List.reverseRecOn with
  | nil => exact start
  | append_singleton ms m ih =>
    rw [Channel.run_concat] at lasts fresh
    have hsound := Channel.sound_run (S := S) ms sound
    have phase : (c₀.run S ms).2.phase = .handshaking :=
      Decidable.byContradiction fun ended =>
        (Channel.leads_move (S := S) m hsound).ne_handshaking ended lasts
    have unkeyed := Channel.fresh_of_lasts hsound lasts fresh
    exact (ih phase unkeyed).move gradual unkeyed lasts fresh

/-! ## The rules -/

variable (S) in
/-- The rules for the consent to an association `c₀` that the user confirms. -/
structure Consented (c₀ : Channel ε σ τ) : Prop where
  /-- The engine is asked for a key, and a key is set, only when the user accepts the code, after the code
  was shown. -/
  accepted : ∀ ms m,
    ((∃ answer, .asked .verify answer ∈ ((c₀.run S ms).2.move S m).1.acts) ∨
      Channel.Sets (c₀.run S ms).2 ((c₀.run S ms).2.move S m).2) →
    m = .call .accept ∧ Shown S c₀ ms
  /-- As long as nobody accepts the code there is no key, and the channel is not established. -/
  unaccepted : ∀ ms, .call .accept ∉ ms →
    (c₀.run S ms).2.key = none ∧ (c₀.run S ms).2.phase ≠ .established

/-- Every association that the user confirms obeys the rules, whatever its store and its stream do, and
with every engine whose first step does not skip the second. -/
theorem consented_run (gradual : S.engine.Gradual) (engine : ε) (store : σ) (stream : τ) (tape : Tape) :
    Consented S (Channel.visual engine store stream tape).2 := by
  obtain ⟨c₀, hc₀⟩ : ∃ c₀, (Channel.visual engine store stream tape).2 = c₀ := ⟨_, rfl⟩
  have new : Channel.NewAssociation c₀ := hc₀ ▸ .visual engine store stream tape
  have start : Consenting S c₀ [] := by
    subst hc₀
    exact .unshown ⟨none, none, rfl⟩ (Nat.zero_le _) (List.forall_mem_nil _)
  rw [hc₀]
  have accepted : ∀ ms m,
      ((∃ answer, .asked .verify answer ∈ ((c₀.run S ms).2.move S m).1.acts) ∨
        Channel.Sets (c₀.run S ms).2 ((c₀.run S ms).2.move S m).2) →
      m = .call .accept ∧ Shown S c₀ ms := by
    intro ms m keyed
    have hsound := Channel.sound_run (S := S) ms new.sound
    have hreturning := (Channel.returning_run (S := S) ms new.sound).trans new.returning
    have haccepts : ∃ i, m = .call i ∧ Channel.Accepts S (c₀.run S ms).2 i := by
      refine Channel.accepts_of_keyed hsound hreturning (keyed.imp_right fun sets => ?_)
      have hfresh := sets.fresh hsound
      obtain ⟨key, hkey, -⟩ := sets
      exact ⟨hfresh, by rw [hkey]; exact Option.some_ne_none key⟩
    obtain ⟨i, rfl, haccepts⟩ := haccepts
    have hfresh := haccepts.fresh hsound
    cases haccepts with
    | user phase _ stage =>
      refine ⟨rfl, ?_⟩
      cases consenting_run gradual new.sound start ms phase hfresh with
      | shown _ _ shown => exact shown
      | unshown _ early _ => rcases stage with h | h <;> rw [h] at early <;> exact absurd early (by decide)
    | code phase _ _ kind _ =>
      obtain ⟨pendingKey, device, hkind⟩ :=
        (consenting_run gradual new.sound start ms phase hfresh).visual
      cases hkind.symm.trans kind
  refine ⟨accepted, fun ms unaccepted => ?_⟩
  have unkeyed : (c₀.run S ms).2.key = none := by
    induction ms using List.reverseRecOn with
    | nil =>
      subst hc₀
      rfl
    | append_singleton ms m ih =>
      have hbefore := ih fun h => unaccepted (List.mem_append_left _ h)
      rw [Channel.run_concat]
      refine Option.eq_none_iff_forall_ne_some.2 fun key hkey => unaccepted ?_
      obtain ⟨rfl, -⟩ := accepted ms m (.inr (.of_fresh hbefore hkey))
      exact List.mem_append_right _ (List.mem_singleton_self _)
  exact ⟨unkeyed, fun established =>
    (Channel.sound_run (S := S) ms new.sound).keyed established unkeyed⟩

/-- The user accepts the code of an honest peer: the key is set, and the code was shown before. -/
theorem consented_introduction :
    Bench.responding.engine.Gradual ∧
    Consented Bench.responding (Bench.meeting Responder.visual) ∧
    Channel.Sets ((Bench.meeting Responder.visual).run Bench.responding Channel.introduction).2
      (((Bench.meeting Responder.visual).run Bench.responding Channel.introduction).2.move
        Bench.responding (.call .accept)).2 ∧
    Shown Bench.responding (Bench.meeting Responder.visual) Channel.introduction := by
  have gradual : Bench.responding.engine.Gradual := Responder.gradual_engine .standard
  have consented : Consented Bench.responding (Bench.meeting Responder.visual) :=
    consented_run gradual Responder.visual .empty ⟨false⟩ ⟨fun i => i.toUInt8, 0⟩
  obtain ⟨fresh, -⟩ := consented.unaccepted Channel.introduction
    (by simp [Channel.introduction, Channel.Move.frame])
  have keyed : (((Bench.meeting Responder.visual).run Bench.responding Channel.introduction).2.move
      Bench.responding (.call .accept)).2.key.isSome = true := by
    decide +kernel
  obtain ⟨key, hkey⟩ := Option.isSome_iff_exists.1 keyed
  have sets := Channel.Sets.of_fresh fresh hkey
  exact ⟨gradual, consented, sets, (consented.accepted Channel.introduction _ (.inr sets)).2⟩

end Association

end DevicePairing
