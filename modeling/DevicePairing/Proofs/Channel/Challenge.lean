import DevicePairing.Proofs.Channel.Handshake

/-!
# The gate before a reconnection

A channel that waits for a device to come back may first want to see an answer to a challenge. Until a
frame starts with this answer the channel is a shut gate: it asks neither its engine nor its store, and
writes nothing. A wrong answer makes it fail, and all wrong answers look the same. A right one is followed
by the peer's own challenge, which is hashed under the challenge secret; this is done once at most, so
that whoever knows one right answer has one hash to gain. `Reconnection.Gated` lists these rules, and
`Reconnection.gated_run` is the proof that every run of every such channel obeys them.

The gate stands in one of three ways (`Reconnection.Gate`): shut, or broken by a right answer that could not
be answered in turn, or open. A shut gate stays shut at every call but the right answer
(`Reconnection.Shut.serve`), and an open one stays open (`Channel.verified_run`).
-/

namespace DevicePairing

variable {ε σ τ : Type} {S : Setting ε σ τ}

/-! ## The latch -/

/-- To drop the secrets does not undo that the peer was verified. -/
theorem Turn.verified_wipe (t : Turn ε σ τ) : t.wipe.verified = t.verified := by
  unfold wipe Channel.verified
  rcases t.kind with ⟨_ | _, _, _⟩ | _ <;> rfl

/-- Nor does it to give up. -/
theorem Turn.verified_fail (t : Turn ε σ τ) (code : ErrorCode) : (t.fail code).verified = t.verified := by
  by_cases hphase : t.phase = .handshaking
  · rw [fail_of_handshaking hphase]
    exact t.verified_wipe
  · rw [fail_of_over hphase]

namespace Channel

variable {c : Channel ε σ τ} {i : Call} {t : Turn ε σ τ}

/-- Whether the peer is verified shows in what the channel remembers for its kind. -/
theorem verified_of_kind {c' : Channel ε σ τ} (h : c'.kind = c.kind) : c'.verified = c.verified := by
  unfold verified
  rw [h]

/-- A step that leaves that as it is leaves the latch as it is, even if it is given up. -/
theorem verified_attempt {w : Work ε σ τ Unit} (kind : Work.Leaves (fun t => t.kind) w) :
    (c.turn.attempt w).verified = c.verified := by
  have hkind : (w c.turn).2.verified = c.verified := verified_of_kind (kind c.turn)
  rw [Turn.attempt_eq_settle]
  rcases (w c.turn).1 with code | _
  · exact (Turn.verified_fail ..).trans hkind
  · exact hkind

/-- Only of a device that comes back can it be said that it is verified. -/
theorem returning_of_verified (h : c.verified = true) : c.kind.returning ≠ none := by
  unfold verified at h
  rcases hkind : c.kind with _ | _
  · rw [hkind] at h
    cases h
  · exact Option.some_ne_none _

/-- Once the peer is verified, no frame undoes it: the one step that would change the latch is not set off
again. -/
theorem verified_setsOff {payload : Bytes} {w : Work ε σ τ Unit} (h : c.verified = true)
    (step : SetsOff S c payload w) : (c.turn.attempt w).verified = true := by
  cases step with
  | init _ _ => exact (verified_attempt (Association.kind_init payload)).trans h
  | verify _ kind =>
    rw [verified, kind] at h
    cases h
  | proceed _ kind | peerCode _ kind | final _ kind => exact absurd kind (returning_of_verified h)
  | proceedReturning _ _ => exact (verified_attempt (Reconnection.kind_proceed payload)).trans h
  | resume _ _ => exact (verified_attempt (Reconnection.kind_resume _ payload)).trans h
  | stray _ => exact (verified_attempt fun _ => rfl).trans h

/-- Who is verified stays so. -/
theorem verified_serve (h : c.verified = true) (i : Call) : (c.serve S i).verified = true := by
  have hdispatched := dispatched_serve (S := S) i c
  generalize c.serve S i = t at *
  cases hdispatched with
  | idle | told _ _ _ => exact h
  | sent _ _ _ _ kind => exact (verified_of_kind kind).trans h
  | unreadable _ | premature _ => exact (Turn.verified_fail ..).trans h
  | frame _ _ step => exact verified_setsOff h step
  | accepted _ kind _ => exact absurd kind (returning_of_verified h)
  | closed _ => exact c.turn.verified_wipe.trans h

/-- Whatever happens in a run, who was verified at its start is so at its end. -/
theorem verified_run (ms : List (Move σ τ)) (h : c.verified = true) :
    (c.run S ms).2.verified = true := by
  refine run_induction (P := fun _ d => d.verified = true) h ?_
  intro _ d m _ hd
  cases m with
  | call i =>
    show (d.call S i).2.verified = true
    rw [call_channel]
    exact verified_serve hd i
  | _ => exact hd

end Channel

namespace Reconnection

/-! ## A gate that is shut -/

/-- The peer has not answered the challenge: there is no key, and while the handshake lasts the channel
waits for the answer. -/
structure Shut (device : Uuid) (expected : Bytes) (c : Channel ε σ τ) : Prop where
  /-- There is no key. -/
  fresh : c.key = none
  /-- The peer is not verified. -/
  unverified : c.verified = false
  /-- The channel waits for the answer. -/
  waiting : c.phase = .handshaking →
    c.stage = .unknown ∧ c.kind = .reconnection device (some expected) false

variable {device : Uuid} {expected : Bytes} {c : Channel ε σ τ} {i : Call} {t : Turn ε σ τ}

/-- A shut gate whose channel gives up is shut for good. -/
theorem Shut.fail (phase : t.phase = .handshaking) (unverified : t.verified = false)
    (code : ErrorCode) : Shut device expected (t.fail code).toChannel := by
  refine ⟨?_, (t.verified_fail code).trans unverified, fun h => ?_⟩
  · rw [Turn.fail_of_handshaking phase]
    rfl
  · rw [Turn.phase_fail_of_handshaking phase] at h
    cases h

/-- Before a shut gate, every frame is compared with the answer. -/
theorem Shut.setsOff (h : Shut device expected c) (phase : c.phase = .handshaking) {payload : Bytes}
    {w : Work ε σ τ Unit} (step : Channel.SetsOff S c payload w) :
    w = verify S device (some expected) payload := by
  obtain ⟨hstage, hkind⟩ := h.waiting phase
  cases step with
  | init _ admitted =>
    rcases admitted with hreturning | hverified
    · rw [hkind] at hreturning
      cases hreturning
    · cases hverified.symm.trans h.unverified
  | verify _ kind =>
    cases hkind.symm.trans kind
    rfl
  | proceed stage _ | proceedReturning stage _ | peerCode stage _ | final stage _ | resume stage _ =>
    cases hstage.symm.trans stage
  | stray late =>
    rw [hstage] at late
    exact absurd late (by decide)

/-- Every frame that comes to a shut gate is compared with the answer, unless it is sealed. -/
theorem Shut.serve_frame (h : Shut device expected c) (phase : c.phase = .handshaking)
    {m : DeviceMessage} (plain : m.encrypted = false) :
    c.serve S (.arrived m .handshake) =
      c.turn.attempt (verify S device (some expected) m.payload) := by
  obtain ⟨w, hstep, hserve⟩ := Channel.setsOff_serve (S := S) phase plain
  rw [hserve, h.setsOff phase hstep]

/-- A frame that does not start with the answer is refused, whatever else is in it. -/
theorem verify_of_differs {payload : Bytes} (differs : ¬ expected <+: payload) (t : Turn ε σ τ) :
    verify S device (some expected) payload t = (.error .invalidEncryptionKey, t) := by
  have hchecked := checked_verify (S := S) device expected payload t
  generalize hr : verify S device (some expected) payload t = p at hchecked
  obtain ⟨r, t'⟩ := p
  cases hchecked with
  | refused _ => rfl
  | unhashed starts _ | unanswered starts _ _ | answered starts _ _ =>
    exact absurd ⟨_, starts.symm⟩ differs

/-- A shut gate stays shut, and next to nothing is done, at every call but the right answer. -/
theorem Shut.serve (h : Shut device expected c) (i : Call) :
    (Shut device expected (c.serve S i).toChannel ∧
      ∀ a ∈ (c.serve S i).acts, a = .listening false) ∨
    ∃ m challenge, i = .arrived m .handshake ∧ m.encrypted = false ∧
      m.payload = expected ++ challenge ∧ c.phase = .handshaking := by
  have hfail : ∀ {t : Turn ε σ τ} {code}, t.acts = [] → t.phase = .handshaking →
      t.verified = false → Shut device expected (t.fail code).toChannel ∧
        ∀ a ∈ (t.fail code).acts, a = .listening false := by
    intro t code hacts hphase hunverified
    rw [Turn.acts_fail, hacts]
    exact ⟨.fail hphase hunverified code, List.forall_mem_nil _⟩
  have hdispatched := Channel.dispatched_serve (S := S) i c
  generalize c.serve S i = t at *
  cases hdispatched with
  | idle => exact .inl ⟨h, List.forall_mem_nil _⟩
  | told _ _ _ => exact .inl ⟨⟨h.fresh, h.unverified, h.waiting⟩, List.forall_mem_nil _⟩
  | sent _ _ keyed _ _ => exact absurd h.fresh keyed
  | unreadable phase | premature phase => exact .inl (hfail rfl phase h.unverified)
  | @frame m payload w phase opens step =>
    obtain rfl := h.setsOff phase step
    obtain ⟨hplain, rfl⟩ := opens.plain_of_fresh h.fresh
    by_cases hstarts : expected <+: m.payload
    · obtain ⟨challenge, hchallenge⟩ := hstarts
      exact .inr ⟨m, challenge, rfl, hplain, hchallenge.symm, phase⟩
    · rw [Turn.attempt_eq_settle, verify_of_differs hstarts]
      exact .inl (hfail rfl phase h.unverified)
  | accepted phase kind _ =>
    rw [(h.waiting phase).2] at kind
    cases kind
  | closed _ =>
    refine .inl ⟨⟨rfl, c.turn.verified_wipe.trans h.unverified, fun h => (nomatch h)⟩, ?_⟩
    intro a ha
    exact List.mem_singleton.1 ha

/-! ## The right answer -/

/-- What is done when the right answer has come in: the challenge that follows it is hashed. -/
inductive Hashed (S : Setting ε σ τ) (device : Uuid) (challenge : Bytes) (s : σ) :
    List Act → Prop where
  /-- It cannot be hashed. -/
  | refused (e : StorageError) : Hashed S device challenge s [.hashed device challenge (.error e)]
  /-- The hash under the challenge secret of the device is written, as it is. -/
  | answered {secret : Bytes} (held : (S.store.secret device s).1 = .ok (some secret))
    (done : List StreamAct) (written : Except StreamError Unit) :
    Hashed S device challenge s [.hashed device challenge (.ok (S.suite.mac secret challenge)),
      .wrote ⟨none, false, (S.suite.mac secret challenge).val⟩ .handshake done written]

/-- A hash that is made is one under the challenge secret that is held. -/
theorem held_of_hash {challenge : Bytes} {proof : Block 32} {s s' : σ}
    (h : S.store.hash S.suite device challenge s = (.ok proof, s')) :
    ∃ secret, (S.store.secret device s).1 = .ok (some secret) ∧
      proof = S.suite.mac secret challenge := by
  unfold SecretStore.hash at h
  rcases hsecret : S.store.secret device s with ⟨_ | _ | secret, s''⟩
  · rw [hsecret] at h
    cases h
  · rw [hsecret] at h
    cases h
  · rw [hsecret] at h
    cases h
    exact ⟨secret, rfl, rfl⟩

/-- What the right answer comes to: the challenge behind it is hashed, and the gate is broken or open. -/
theorem Shut.matched (h : Shut device expected c) (phase : c.phase = .handshaking)
    (challenge : Bytes) :
    Hashed S device challenge c.store
      (c.turn.attempt (verify S device (some expected) (expected ++ challenge))).acts ∧
    ((Shut device expected
        (c.turn.attempt (verify S device (some expected) (expected ++ challenge))).toChannel ∧
      (c.turn.attempt (verify S device (some expected) (expected ++ challenge))).phase ≠
        .handshaking) ∨
      (c.turn.attempt (verify S device (some expected) (expected ++ challenge))).verified = true) := by
  have hchecked := checked_verify (S := S) device expected (expected ++ challenge) c.turn
  have hbroken : ∀ {t : Turn ε σ τ} {code}, t.phase = .handshaking → t.verified = false →
      Shut device expected (t.settle (.error code)).toChannel ∧
        (t.settle (.error code)).phase ≠ .handshaking := by
    intro t code hphase hunverified
    exact ⟨.fail hphase hunverified code, t.phase_fail_ne_handshaking code⟩
  rw [Turn.attempt_eq_settle, Turn.acts_settle]
  generalize (verify S device (some expected) (expected ++ challenge) c.turn).1 = r,
    (verify S device (some expected) (expected ++ challenge) c.turn).2 = t at hchecked
  cases hchecked with
  | refused differs => exact absurd (List.prefix_append ..) differs
  | @unhashed _ e s starts hashed =>
    obtain rfl := List.append_cancel_left starts
    exact ⟨.refused e, .inl (hbroken phase h.unverified)⟩
  | @unanswered _ proof s e done stream starts hashed _ =>
    obtain rfl := List.append_cancel_left starts
    obtain ⟨secret, hheld, rfl⟩ := held_of_hash hashed
    exact ⟨.answered hheld done (.error e), .inl (hbroken phase h.unverified)⟩
  | @answered _ proof s done stream starts hashed _ =>
    obtain rfl := List.append_cancel_left starts
    obtain ⟨secret, hheld, rfl⟩ := held_of_hash hashed
    exact ⟨.answered hheld done (.ok ()), .inr rfl⟩

/-- However the right answer is dealt with, one hash is asked for. -/
theorem Hashed.countP {challenge : Bytes} {s : σ} {acts : List Act}
    (h : Hashed S device challenge s acts) : acts.countP Act.isHash = 1 := by
  cases h <;> rfl

/-! ## The gate along a run -/

/-- How the gate of a channel stands; `acts` are all that was done. -/
inductive Gate (device : Uuid) (expected : Bytes) (acts : List Act) (c : Channel ε σ τ) : Prop where
  /-- It is shut, and no challenge was hashed. -/
  | shut (shut : Shut device expected c) (unhashed : acts.countP Act.isHash = 0)
  /-- The right answer has come in, but the handshake was over before the gate was open. -/
  | broken (shut : Shut device expected c) (ended : c.phase ≠ .handshaking)
    (once : acts.countP Act.isHash ≤ 1)
  /-- It is open. -/
  | opened (verified : c.verified = true) (once : acts.countP Act.isHash ≤ 1)

/-- Once the peer is verified no challenge is hashed. -/
theorem countP_serve_of_verified (h : c.verified = true) (i : Call) :
    (c.serve S i).acts.countP Act.isHash = 0 := by
  refine List.countP_eq_zero.2 fun a ha hhash => ?_
  have hasks : a.isQuestion = true := by
    cases a <;> first | rfl | cases hhash
  have hoccasion := ((Channel.questions_serve (S := S) i c).occasion ha hasks).1
  generalize c.serve S i = t at *
  cases hoccasion with
  | hash _ _ _ kind =>
    rw [Channel.verified, kind] at h
    cases h
  | _ => cases hhash

/-- In every call the gate stays as it is or is opened, and that takes one hash altogether. -/
theorem Gate.serve {acts : List Act} (h : Gate device expected acts c) (sound : c.Sound) (i : Call) :
    Gate device expected (acts ++ (c.serve S i).acts) (c.serve S i).toChannel := by
  have hquiet : (∀ a ∈ (c.serve S i).acts, a = .listening false) →
      (c.serve S i).acts.countP Act.isHash = 0 := by
    intro hacts
    refine List.countP_eq_zero.2 fun a ha => ?_
    rw [hacts a ha]
    exact Bool.false_ne_true
  cases h with
  | shut shut unhashed =>
    rcases shut.serve (S := S) i with ⟨hshut, hacts⟩ | ⟨m, challenge, rfl, hplain, hpayload, phase⟩
    · refine .shut hshut ?_
      rw [List.countP_append, unhashed, hquiet hacts]
    · rw [shut.serve_frame phase hplain, hpayload]
      obtain ⟨hhashed, hstands⟩ := shut.matched (S := S) phase challenge
      have honce : (acts ++ (c.turn.attempt (verify S device (some expected)
          (expected ++ challenge))).acts).countP Act.isHash ≤ 1 := by
        apply Nat.le_of_eq
        rw [List.countP_append, unhashed, hhashed.countP]
      rcases hstands with ⟨hbroken, hended⟩ | hopened
      · exact .broken hbroken hended honce
      · exact .opened hopened honce
  | broken shut ended once =>
    rcases shut.serve (S := S) i with ⟨hshut, hacts⟩ | ⟨_, _, _, _, _, phase⟩
    · refine .broken hshut ?_ ?_
      · exact (Channel.leads_served (Channel.served_serve (S := S) i sound)).ne_handshaking ended
      · rw [List.countP_append, hquiet hacts]
        exact once
    · exact absurd phase ended
  | opened verified once =>
    refine .opened (Channel.verified_serve verified i) ?_
    rw [List.countP_append, countP_serve_of_verified verified i]
    exact once

/-- Nothing that others do moves the gate. -/
theorem Shut.rest {ms : List (Channel.Move σ τ)} {d : Channel ε σ τ} (h : Shut device expected c)
    (rests : Channel.Rests ms c d) : Shut device expected d := by
  refine ⟨rests.key.trans h.fresh, (Channel.verified_of_kind rests.kind).trans h.unverified, ?_⟩
  intro hphase
  rw [rests.stage, rests.kind]
  exact h.waiting (rests.phase.symm.trans hphase)

variable {c₀ : Channel ε σ τ}

/-- So it is in every run that begins at a shut gate. -/
theorem gate_run (sound : c₀.Sound) (shut : Shut device expected c₀) (ms : List (Channel.Move σ τ)) :
    Gate device expected (Outcome.actsOf (c₀.run S ms).1) (c₀.run S ms).2 := by
  refine Channel.serving_run sound (.shut shut rfl) ?_ ?_
  · intro acts d i _ hsound _ hgate
    exact hgate.serve hsound i
  · intro acts d d' hgate hrests
    cases hgate with
    | shut shut unhashed => exact .shut (shut.rest hrests) unhashed
    | broken shut ended once => exact .broken (shut.rest hrests) (hrests.phase ▸ ended) once
    | opened verified once =>
      exact .opened ((Channel.verified_of_kind hrests.kind).trans verified) once

/-- Before a right answer the gate is shut, and next to nothing is done. -/
theorem shut_run (sound : c₀.Sound) (shut : Shut device expected c₀) {ms : List (Channel.Move σ τ)}
    (unmatched : ∀ m, .call (.arrived m .handshake) ∈ ms → m.encrypted = false →
      ¬ expected <+: m.payload) :
    Shut device expected (c₀.run S ms).2 ∧
      ∀ a ∈ Outcome.actsOf (c₀.run S ms).1, a = .listening false := by
  refine Channel.serving_run (P := fun acts d => Shut device expected d ∧
    ∀ a ∈ acts, a = .listening false) sound ⟨shut, List.forall_mem_nil _⟩ ?_ ?_
  · rintro acts d i hi - - ⟨hshut, hquiet⟩
    rcases hshut.serve (S := S) i with ⟨hshut', hacts⟩ | ⟨m, challenge, rfl, hplain, hpayload, _⟩
    · exact ⟨hshut', fun a ha => (List.mem_append.1 ha).elim (hquiet a) (hacts a)⟩
    · exact absurd ⟨challenge, hpayload.symm⟩ (unmatched m hi hplain)
  · rintro acts d d' ⟨hshut, hquiet⟩ hrests
    exact ⟨hshut.rest hrests, hquiet⟩

variable (S) in
/-- The rules for a channel `c₀` that expects an answer to a challenge. -/
structure Gated (device : Uuid) (expected : Bytes) (c₀ : Channel ε σ τ) : Prop where
  /-- Until a frame that is not sealed starts with the answer nothing is asked, written, read or stored;
  the channel may only be closed, and stop listening. -/
  silent : ∀ ms, (∀ m, .call (.arrived m .handshake) ∈ ms → m.encrypted = false →
      ¬ expected <+: m.payload) →
    ∀ a ∈ Outcome.actsOf (c₀.run S ms).1, a = .listening false
  /-- While the handshake goes on and the peer is not verified, a frame that is not sealed and does not
  start with the answer makes the channel fail, and of all such frames exactly the same comes. -/
  refuses : ∀ ms, (c₀.run S ms).2.phase = .handshaking → (c₀.run S ms).2.verified = false →
    ∃ d : Channel ε σ τ, d.phase = .failed .invalidEncryptionKey ∧
      ∀ m, m.encrypted = false → ¬ expected <+: m.payload →
        (c₀.run S ms).2.call S (.arrived m .handshake) =
          (⟨.ok (), [], [.failed .invalidEncryptionKey]⟩, d)
  /-- A frame that does start with the answer has the rest of it hashed under the challenge secret of
  the device, and the hash is all that is written, if anything is. -/
  answers : ∀ ms m challenge, (c₀.run S ms).2.phase = .handshaking →
    (c₀.run S ms).2.verified = false → m.encrypted = false → m.payload = expected ++ challenge →
    Hashed S device challenge (c₀.run S ms).2.store
      ((c₀.run S ms).2.call S (.arrived m .handshake)).1.acts
  /-- Over a whole run one challenge at most is hashed, and so one answer at most is written. -/
  once : ∀ ms, (Outcome.actsOf (c₀.run S ms).1).countP Act.isHash ≤ 1
  /-- A peer that is verified stays so. -/
  latched : ∀ ms ms', (c₀.run S ms).2.verified = true → (c₀.run S (ms ++ ms')).2.verified = true

/-- A sound channel with a shut gate obeys the rules in all its runs. -/
theorem Shut.gated (sound : c₀.Sound) (shut : Shut device expected c₀) :
    Gated S device expected c₀ := by
  have hunverified : ∀ {ms}, (c₀.run S ms).2.verified = false →
      Shut device expected (c₀.run S ms).2 := by
    intro ms hunverified
    cases gate_run sound shut ms with
    | shut shut _ | broken shut _ _ => exact shut
    | opened verified _ => cases hunverified.symm.trans verified
  constructor
  case silent => exact fun ms unmatched => (shut_run sound shut unmatched).2
  case refuses =>
    intro ms phase unverified
    have hshut := hunverified unverified
    generalize (c₀.run S ms).2 = c at *
    refine ⟨(c.turn.fail .invalidEncryptionKey).toChannel, Turn.phase_fail_of_handshaking phase _, ?_⟩
    intro m plain differs
    apply Channel.call_of_refused phase
    rw [hshut.serve_frame phase plain, Turn.attempt_eq_settle, verify_of_differs differs]
    rfl
  case answers =>
    intro ms m challenge phase unverified plain starts
    have hshut := hunverified unverified
    rw [Channel.call_acts, hshut.serve_frame phase plain, starts]
    exact (hshut.matched phase challenge).1
  case once =>
    intro ms
    cases gate_run (S := S) sound shut ms with
    | shut _ unhashed =>
      rw [unhashed]
      exact Nat.zero_le 1
    | broken _ _ once | opened _ once => exact once
  case latched =>
    intro ms ms' verified
    rw [Channel.run_append]
    exact Channel.verified_run ms' verified

/-- Every channel that expects an answer to a challenge obeys the rules, whatever its engine, its store
and its stream do. -/
theorem gated_run (S : Setting ε σ τ) (device : Uuid) (expected : Bytes) (engine : ε) (store : σ)
    (stream : τ) (tape : Tape) :
    Gated S device expected
      (Channel.reconnection S device (some expected) engine store stream tape).2 :=
  Shut.gated (Channel.NewReconnection.sound (.made ..)) ⟨rfl, rfl, fun _ => ⟨rfl, rfl⟩⟩

/-- The return of the peer, which has to answer a challenge. -/
def challenged : Channel Bench.Script Bench.Vault Bench.Outlet :=
  let c := Bench.returning .acquainted
  (Channel.reconnection Bench.setting Bench.peer (some [8, 9]) c.engine c.store c.stream c.tape).2

/-- The right answer opens the gate and has the challenge behind it hashed; the first half of it makes the
channel fail. -/
theorem gated_challenged :
    (challenged.run Bench.setting [.frame [8, 9, 5]]).2.verified = true ∧
    Hashed Bench.setting Bench.peer [5] challenged.store
      (challenged.call Bench.setting (.arrived ⟨none, false, [8, 9, 5]⟩ .handshake)).1.acts ∧
    (challenged.call Bench.setting (.arrived ⟨none, false, [8]⟩ .handshake)).2.phase =
      .failed .invalidEncryptionKey := by
  have hgated : Gated Bench.setting Bench.peer [8, 9] challenged := gated_run ..
  refine ⟨by decide +kernel, hgated.answers [] ⟨none, false, [8, 9, 5]⟩ [5] rfl rfl rfl rfl, ?_⟩
  obtain ⟨d, hfailed, hrefused⟩ := hgated.refuses [] rfl rfl
  have hcall := hrefused ⟨none, false, [8]⟩ rfl (by decide)
  exact (congrArg (·.2.phase) hcall).trans hfailed

end Reconnection

end DevicePairing
