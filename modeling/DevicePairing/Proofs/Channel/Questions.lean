import DevicePairing.Proofs.Channel.Upshot

/-!
# What a channel asks

Two things a channel asks are worth something to whoever can make it ask them: steps of the key exchange,
of its engine, and hashes under a challenge secret, of its store. `Channel.Occasion` lists the occasions
on which it asks, each with the call that comes in, the turn this becomes, and the question.
`Channel.questions_serve` says that the list is complete and that a call leads to one question at most.
Who wants to know what must have happened for a question to be asked takes the occasions apart; who wants
to know what comes of the question has the turn.

The one question that comes up in two kinds of calls is that for a key. `Channel.Accepts` tells them
apart: the user accepts the code, or the peer sends the right one.
-/

namespace DevicePairing

/-- Whether an act asks the engine for a step or the store for a hash under a challenge secret. -/
def Act.isQuestion : Act → Bool
  | .asked .. | .hashed .. => true
  | _ => false

/-- To write is not to ask. -/
theorem Act.isQuestion_of_isWrite {a : Act} (h : a.isWrite = true) : a.isQuestion = false := by
  cases a <;> first | rfl | cases h

/-- Whether an act asks the engine for the key of an association. -/
def Act.isVerify : Act → Bool
  | .asked .verify _ => true
  | _ => false

/-- Whether an act asks the engine to resume a session. -/
def Act.isResume : Act → Bool
  | .asked (.resume ..) _ => true
  | _ => false

/-- Whether an act hashes a challenge. -/
def Act.isHash : Act → Bool
  | .hashed .. => true
  | _ => false

variable {ε σ τ : Type} {α β : Type}

/-- What has been asked in a turn so far. -/
def Turn.questions (t : Turn ε σ τ) : List Act := t.acts.filter Act.isQuestion

/-- An act joins the questions if it is one. -/
@[simp] theorem Turn.questions_note (a : Act) (t : Turn ε σ τ) :
    (t.note a).questions = t.questions ++ [a].filter Act.isQuestion := by
  simp [note, questions]

/-- An act that is no question leaves the questions as they are. -/
theorem Turn.questions_note_of_isQuestion {a : Act} (h : a.isQuestion = false) (t : Turn ε σ τ) :
    (t.note a).questions = t.questions := by
  simp [h]

/-- To give up is not to ask. -/
@[simp] theorem Turn.questions_settle (r : Except ErrorCode Unit) (t : Turn ε σ τ) :
    (t.settle r).questions = t.questions := by
  simp [questions]

/-- Questions are put to the engine, and to the store about challenges; nothing else is a question. -/
theorem Turn.dependsOn_questions {S : Setting ε σ τ} : DependsOn S [.ask, .hash] questions := by
  rintro x t t' h apart
  cases h <;> first | rfl | exact absurd (by decide) apart | exact questions_note_of_isQuestion rfl _

/-! ## Steps that ask once -/

namespace Work

variable {S : Setting ε σ τ} {touches : List Touch}

/-- A step asks one question at most, and one of the given kind. -/
def Asks (p : Act → Prop) (w : Work ε σ τ α) : Prop :=
  ∀ t, (w t).2.questions = t.questions ∨ ∃ q, p q ∧ (w t).2.questions = t.questions ++ [q]

variable {p : Act → Prop}

/-- A step in whose footprint there is no question asks nothing. -/
theorem Footprint.asks {w : Work ε σ τ α} (h : Footprint S touches w)
    (unasked : ∀ x ∈ touches, x ∉ [Touch.ask, .hash]) : Asks p w :=
  fun t => .inl (h.leaves Turn.dependsOn_questions unasked t)

/-- What comes before the question asks nothing. -/
theorem Footprint.bind_asks {x : Work ε σ τ α} {f : α → Work ε σ τ β} (hx : Footprint S touches x)
    (unasked : ∀ y ∈ touches, y ∉ [Touch.ask, .hash]) (hf : ∀ a, Asks p (f a)) : Asks p (x >>= f) := by
  intro t
  have hxt := hx.leaves Turn.dependsOn_questions unasked t
  rw [bind_apply]
  rcases h : x t with ⟨code | a, t'⟩
  · rw [h] at hxt
    exact .inl hxt
  · rw [h] at hxt
    dsimp only at hxt ⊢
    rw [← hxt]
    exact hf a t'

/-- What comes after the question asks nothing. -/
theorem Asks.bind_leaves {x : Work ε σ τ α} {f : α → Work ε σ τ β} (hx : Asks p x)
    (hf : ∀ a, Leaves Turn.questions (f a)) : Asks p (x >>= f) := by
  intro t
  have hxt := hx t
  rw [bind_apply]
  rcases h : x t with ⟨code | a, t'⟩
  · rwa [h] at hxt
  · rw [h] at hxt
    dsimp only at hxt ⊢
    rw [hf a t']
    exact hxt

/-- To ask the engine is to ask that question. -/
theorem asks_ask (call : EngineCall) : Asks (fun q => ∃ answer, q = .asked call answer) (ask S call) :=
  fun _ => .inr ⟨_, ⟨_, rfl⟩, Turn.questions_note ..⟩

/-- The question may be described with less detail. -/
theorem Asks.mono {p' : Act → Prop} {w : Work ε σ τ α} (h : Asks p w) (hp : ∀ q, p q → p' q) :
    Asks p' w := by
  intro t
  rcases h t with h | ⟨q, hq, h⟩
  · exact .inl h
  · exact .inr ⟨q, hp q hq, h⟩

variable {call : EngineCall} {w : Work ε σ τ Unit}

/-- What comes after the first question asks nothing, if there are no questions among it. -/
theorem AsksFirst.exists_rest (h : AsksFirst S call touches w)
    (unasked : ∀ x ∈ touches, x ∉ [Touch.ask, .hash]) :
    ∃ rest : Reply → Work ε σ τ Unit, w = ask S call >>= rest ∧
      ∀ reply, Leaves Turn.questions (rest reply) := by
  obtain ⟨rest, hw, hrest⟩ := h
  refine ⟨rest, hw, fun reply => (hrest reply).1.leaves Turn.dependsOn_questions ?_⟩
  exact List.forall_mem_cons.2 ⟨by decide, unasked⟩

/-- A step that asks first, and does not ask again, asks once. -/
theorem AsksFirst.asks (h : AsksFirst S call touches w) (unasked : ∀ x ∈ touches, x ∉ [Touch.ask, .hash]) :
    Asks (fun q => ∃ answer, q = .asked call answer) w := by
  obtain ⟨rest, rfl, hrest⟩ := h.exists_rest unasked
  exact (asks_ask call).bind_leaves hrest

end Work

/-! ## What the handlers ask -/

namespace Reconnection

variable {S : Setting ε σ τ}

/-- The challenge of the peer is hashed only behind the answer to ours. -/
theorem asks_verify (device : Uuid) (expected payload : Bytes) :
    Work.Asks (fun q => ∃ challenge answer, payload = expected ++ challenge ∧
      q = .hashed device challenge answer) (verify S device (some expected) payload) := by
  intro t
  have hchecked := checked_verify (S := S) device expected payload t
  generalize (verify S device (some expected) payload t).1 = r,
    (verify S device (some expected) payload t).2 = t' at hchecked
  cases hchecked with
  | refused _ => exact .inl rfl
  | unhashed starts _ | unanswered starts _ _ | answered starts _ _ =>
    exact .inr ⟨.hashed device _ _, ⟨_, _, starts, rfl⟩, List.filter_append ..⟩

/-- The engine is asked to resume a session, and nothing else. -/
theorem asks_resume (device : Uuid) (payload : Bytes) :
    Work.Asks (fun q => ∃ previous answer, q = .asked (.resume payload previous) answer)
      (resume S device payload) := by
  obtain ⟨w, hresume, hasks⟩ := exists_asksFirst_resume (S := S) device payload
  rw [hresume]
  refine (Work.footprint_readKey device).bind_asks (by decide) fun found => ?_
  refine (Work.footprint_require (S := S) _ found).bind_asks (by decide) fun previous => ?_
  exact ((hasks previous).asks (by decide)).mono fun q hq => ⟨previous, hq⟩

end Reconnection

/-! ## The peer's code -/

namespace Association

variable {S : Setting ε σ τ} {t : Turn ε σ τ} {payload : Bytes}

/-- The peer's code is compared with the one that we have sent. -/
theorem peerCode_of_code {cipher : OutOfBand.Cipher} {code : Bytes} {pendingKey : Option SessionKey}
    {device : Option Uuid}
    (kind : t.kind = .association (.outOfBand cipher (some code)) pendingKey device) :
    peerCode S payload t = match cipher.decode S.suite payload with
      | .error _ => (.error .invalidHandshake, t)
      | .ok peer => if peer = code then accept S t else (.error .invalidVerification, t) := by
  unfold peerCode
  simp only [Work.bind_apply, Work.get_apply, kind]
  split
  · next hdecoded => simp only [hdecoded, Work.throw_apply]
  · next peer hdecoded =>
    simp only [hdecoded]
    split <;> rfl

/-- As long as we have sent no code there is nothing to compare with. -/
theorem peerCode_of_codeless
    (kind : ∀ cipher code pendingKey device,
      t.kind ≠ .association (.outOfBand cipher (some code)) pendingKey device) :
    peerCode S payload t = (.error .invalidState, t) := by
  unfold peerCode
  simp only [Work.bind_apply, Work.get_apply]
  rcases hkind : t.kind with ⟨_ | ⟨cipher, _ | code⟩, pendingKey, device⟩ | _
  case association.outOfBand.some => exact absurd hkind (kind cipher code pendingKey device)
  all_goals rfl

/-- The peer's code is refused without a question, or it is ours. -/
theorem peerCode_refused_or (payload : Bytes) (t : Turn ε σ τ) :
    (∃ error, peerCode S payload t = (.error error, t)) ∨
      ∃ cipher code pendingKey device,
        t.kind = .association (.outOfBand cipher (some code)) pendingKey device ∧
        cipher.decode S.suite payload = .ok code ∧ peerCode S payload t = accept S t := by
  by_cases hcode : ∃ cipher code pendingKey device,
      t.kind = .association (.outOfBand cipher (some code)) pendingKey device
  case neg =>
    refine .inl ⟨.invalidState, peerCode_of_codeless fun cipher code pendingKey device hkind => ?_⟩
    exact hcode ⟨cipher, code, pendingKey, device, hkind⟩
  obtain ⟨cipher, code, pendingKey, device, hkind⟩ := hcode
  rw [peerCode_of_code hkind]
  rcases hdecoded : cipher.decode S.suite payload with _ | peer
  · exact .inl ⟨_, rfl⟩
  by_cases hsame : peer = code
  · subst hsame
    exact .inr ⟨cipher, peer, pendingKey, device, hkind, hdecoded, if_pos rfl⟩
  · exact .inl ⟨.invalidVerification, if_neg hsame⟩

end Association

/-! ## What a call asks -/

namespace Channel

variable (S : Setting ε σ τ)

/-- A call has an association ask for its key: the user accepts the code, or the peer sends the right
one. -/
inductive Accepts (c : Channel ε σ τ) : Call → Prop where
  /-- The user accepts the code. -/
  | user (phase : c.phase = .handshaking) (kind : c.kind.returning = none)
    (stage : c.stage = .verificationNeeded ∨ c.stage = .oobVerificationNeeded) : Accepts c .accept
  /-- The peer sends the code that we have sent. -/
  | code {m : DeviceMessage} {payload code : Bytes} {cipher : OutOfBand.Cipher}
    {pendingKey : Option SessionKey} {device : Option Uuid} (phase : c.phase = .handshaking)
    (opens : c.Opens S m payload) (stage : c.stage = .oobVerificationNeeded)
    (kind : c.kind = .association (.outOfBand cipher (some code)) pendingKey device)
    (decoded : cipher.decode S.suite payload = .ok code) : Accepts c (.arrived m .handshake)

/-- The occasions on which a channel asks: the call that comes in, the turn that this becomes, and the
question. -/
inductive Occasion (c : Channel ε σ τ) : Call → Turn ε σ τ → Act → Prop where
  /-- The first frame for the engine. -/
  | init {m : DeviceMessage} {payload : Bytes} {answer : Except ExchangeError Reply}
    (phase : c.phase = .handshaking) (opens : c.Opens S m payload) (stage : c.stage = .unknown)
    (admitted : c.kind.returning = none ∨ c.verified = true) :
    Occasion c (.arrived m .handshake) (c.turn.attempt (Association.init S payload))
      (.asked (.init payload) answer)
  /-- The second frame of an association. -/
  | proceed {m : DeviceMessage} {payload : Bytes} {answer : Except ExchangeError Reply}
    (phase : c.phase = .handshaking) (opens : c.Opens S m payload) (stage : c.stage = .inProgress)
    (kind : c.kind.returning = none) :
    Occasion c (.arrived m .handshake) (c.turn.attempt (Association.proceed S payload))
      (.asked (.proceed payload) answer)
  /-- The second frame of a device that comes back. -/
  | proceedReturning {m : DeviceMessage} {payload : Bytes} {answer : Except ExchangeError Reply}
    {device : Uuid} (phase : c.phase = .handshaking) (opens : c.Opens S m payload)
    (stage : c.stage = .inProgress) (kind : c.kind.returning = some device) :
    Occasion c (.arrived m .handshake) (c.turn.attempt (Reconnection.proceed S payload))
      (.asked (.proceed payload) answer)
  /-- The code is accepted. -/
  | verify {i : Call} {answer : Except ExchangeError Reply} (accepts : Accepts S c i) :
    Occasion c i (c.turn.attempt (Association.accept S)) (.asked .verify answer)
  /-- The peer answers our challenge and sends its own. -/
  | hash {m : DeviceMessage} {device : Uuid} {expected challenge : Bytes}
    {answer : Except StorageError (Block 32)} (phase : c.phase = .handshaking)
    (opens : c.Opens S m (expected ++ challenge)) (stage : c.stage = .unknown)
    (kind : c.kind = .reconnection device (some expected) false) :
    Occasion c (.arrived m .handshake)
      (c.turn.attempt (Reconnection.verify S device (some expected) (expected ++ challenge)))
      (.hashed device challenge answer)
  /-- The proof of a device that comes back. -/
  | resume {m : DeviceMessage} {device : Uuid} {payload previous : Bytes}
    {answer : Except ExchangeError Reply} (phase : c.phase = .handshaking)
    (opens : c.Opens S m payload) (stage : c.stage = .resumingSession)
    (kind : c.kind.returning = some device) :
    Occasion c (.arrived m .handshake) (c.turn.attempt (Reconnection.resume S device payload))
      (.asked (.resume payload previous) answer)

/-- In dealing with a call, which becomes a given turn, a channel asks nothing, or one question on one
of the occasions. -/
def AsksOnce (c : Channel ε σ τ) (i : Call) (t : Turn ε σ τ) : Prop :=
  t.questions = [] ∨ ∃ q, Occasion S c i t q ∧ t.questions = [q]

variable {S} {c : Channel ε σ τ} {i : Call}

/-- A step that asks once, on an occasion. -/
theorem asksOnce_attempt {p : Act → Prop} {w : Work ε σ τ Unit} (h : Work.Asks p w)
    (occasion : ∀ q, p q → Occasion S c i (c.turn.attempt w) q) :
    AsksOnce S c i (c.turn.attempt w) := by
  have hquestions : (c.turn.attempt w).questions = (w c.turn).2.questions := by
    rw [Turn.attempt_eq_settle, Turn.questions_settle]
  unfold AsksOnce
  rw [hquestions]
  rcases h c.turn with hnone | ⟨q, hq, hone⟩
  · exact .inl hnone
  · exact .inr ⟨q, occasion q hq, hone⟩

/-- A step that asks nothing needs no occasion. -/
theorem asksOnce_of_footprint {w : Work ε σ τ Unit} {touches : List Touch} (h : Work.Footprint S touches w)
    (unasked : ∀ x ∈ touches, x ∉ [Touch.ask, .hash]) : AsksOnce S c i (c.turn.attempt w) :=
  asksOnce_attempt (p := fun _ => False) (h.asks unasked) fun _ hq => hq.elim

/-- The acceptance of the code asks for the key. -/
theorem asksOnce_accept (accepts : Accepts S c i) :
    AsksOnce S c i (c.turn.attempt (Association.accept S)) := by
  apply asksOnce_attempt (Association.asksFirst_accept.asks (by decide))
  rintro q ⟨answer, rfl⟩
  exact .verify accepts

/-- What a frame sets off asks once at most, on one of the occasions. -/
theorem asksOnce_setsOff {m : DeviceMessage} {payload : Bytes} {w : Work ε σ τ Unit}
    (phase : c.phase = .handshaking) (opens : c.Opens S m payload) (step : SetsOff S c payload w) :
    AsksOnce S c (.arrived m .handshake) (c.turn.attempt w) := by
  cases step with
  | init stage admitted =>
    apply asksOnce_attempt ((Association.asksFirst_init payload).asks (by decide))
    rintro q ⟨answer, rfl⟩
    exact .init phase opens stage admitted
  | @verify device expected stage kind =>
    rcases expected with _ | expected
    · exact asksOnce_of_footprint (.throw _ : Work.Footprint S [] _) nofun
    apply asksOnce_attempt (Reconnection.asks_verify device expected payload)
    rintro q ⟨challenge, answer, rfl, rfl⟩
    exact .hash phase opens stage kind
  | proceed stage kind =>
    apply asksOnce_attempt ((Association.asksFirst_proceed payload).asks (by decide))
    rintro q ⟨answer, rfl⟩
    exact .proceed phase opens stage kind
  | proceedReturning stage kind =>
    apply asksOnce_attempt ((Reconnection.asksFirst_proceed payload).asks (by decide))
    rintro q ⟨answer, rfl⟩
    exact .proceedReturning phase opens stage kind
  | peerCode stage kind =>
    rcases Association.peerCode_refused_or (S := S) payload c.turn with
      ⟨error, h⟩ | ⟨cipher, code, pendingKey, device, hkind, hdecoded, h⟩
    · refine .inl ?_
      rw [Turn.attempt_eq_settle, h, Turn.questions_settle]
      rfl
    · rw [Turn.attempt_eq_settle, h, ← Turn.attempt_eq_settle]
      exact asksOnce_accept (.code phase opens stage hkind hdecoded)
  | final _ _ => exact asksOnce_of_footprint (Association.footprint_final payload) (by decide)
  | resume stage kind =>
    apply asksOnce_attempt (Reconnection.asks_resume _ payload)
    rintro q ⟨previous, answer, rfl⟩
    exact .resume phase opens stage kind
  | stray _ => exact asksOnce_of_footprint (.throw _ : Work.Footprint S [] _) nofun

/-- Wherever a call ends up, it asks once at most, on one of the occasions. -/
theorem asksOnce_dispatched {t : Turn ε σ τ} (h : Dispatched S c i t) : AsksOnce S c i t := by
  cases h with
  | idle | told _ _ _ => exact .inl rfl
  | sent _ _ _ writes _ =>
    exact .inl (List.filter_eq_nil_iff.2 fun a ha => by simp [Act.isQuestion_of_isWrite (writes a ha)])
  | unreadable _ | premature _ =>
    exact .inl (congrArg (List.filter Act.isQuestion) (Turn.acts_fail ..))
  | frame phase opens step => exact asksOnce_setsOff phase opens step
  | accepted phase kind stage => exact asksOnce_accept (.user phase kind stage)
  | closed _ => exact .inl rfl

/-- An act that asks is the only one of its turn, and has its occasion. -/
theorem AsksOnce.occasion {t : Turn ε σ τ} (h : AsksOnce S c i t) {a : Act} (ha : a ∈ t.acts)
    (asks : a.isQuestion = true) : Occasion S c i t a ∧ t.questions = [a] := by
  have hmem : a ∈ t.questions := List.mem_filter.2 ⟨ha, asks⟩
  rcases h with hnone | ⟨q, hq, hone⟩
  · rw [hnone] at hmem
    cases hmem
  · rw [hone] at hmem
    obtain rfl := List.mem_singleton.1 hmem
    exact ⟨hq, hone⟩

/-- A call leads to one question at most, and only on one of the occasions. -/
theorem questions_serve (i : Call) (c : Channel ε σ τ) : AsksOnce S c i (c.serve S i) :=
  asksOnce_dispatched (dispatched_serve i c)

end Channel

end DevicePairing
