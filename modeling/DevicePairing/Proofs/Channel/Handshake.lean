import DevicePairing.Bench
import DevicePairing.Proofs.Channel.Questions
import DevicePairing.Proofs.Store.View

/-!
# As long as the handshake lasts

While the handshake of a channel goes on, only two things can come of a call: preparation, or, in an
association, a key on which the engine agrees and under which our own identifier is sent. All else ends
the handshake, for better or worse. `Channel.lasting_serve` says so, with what is asked and written on the
way, and `Channel.handshaking_run` turns it into an induction for what holds until the handshake ends.

In particular nothing is handed to the store before the end. A channel over a store in memory that nobody
else changes finds it as it was when the channel was made (`Channel.Lasting.alike`).
-/

namespace DevicePairing

variable {ε σ τ : Type} {S : Setting ε σ τ}

/-- A step after which the handshake goes on has succeeded. -/
theorem Turn.attempt_of_lasts {w : Work ε σ τ Unit} {t : Turn ε σ τ}
    (lasts : (t.attempt w).phase = .handshaking) : w t = (.ok (), t.attempt w) := by
  unfold attempt at *
  rcases hw : w t with ⟨code | _, t'⟩
  · rw [hw] at lasts
    exact absurd lasts (t'.phase_fail_ne_handshaking code)
  · rfl

/-! ## What a step that succeeds has done -/

namespace Work

variable {α β : Type} {t t' : Turn ε σ τ}

/-- A sequence of steps succeeds one step after the other. -/
theorem bind_of_ok {x : Work ε σ τ α} {f : α → Work ε σ τ β} {b : β}
    (h : (x >>= f) t = (.ok b, t')) : ∃ a t₁, x t = (.ok a, t₁) ∧ f a t₁ = (.ok b, t') := by
  rw [bind_apply] at h
  rcases hx : x t with ⟨code | a, t₁⟩
  · rw [hx] at h
    cases h
  · rw [hx] at h
    exact ⟨a, t₁, rfl, h⟩

/-- What had to be there was there. -/
theorem require_of_ok {code : ErrorCode} {o : Option α} {a : α}
    (h : require code o t = (.ok a, t')) : o = some a ∧ t' = t := by
  cases o with
  | none => cases h
  | some _ =>
    cases h
    exact ⟨rfl, rfl⟩

/-- The handshake has gone on to the stage. -/
theorem advance_of_ok {next : Stage} (h : advance next t = (.ok (), t')) :
    t' = { t with stage := next } := by
  unfold advance at h
  split at h <;> cases h
  rfl

/-- The engine was asked, and that is what is noted. -/
theorem ask_of_ok {call : EngineCall} {reply : Reply} (h : ask S call t = (.ok reply, t')) :
    t'.kind = t.kind ∧ t'.acts = t.acts ++ [.asked call (.ok reply)] := by
  have hanswer := answer_of_ask h
  have hacts : t'.acts = t.acts ++ [.asked call (S.engine.answer call t.engine t.tape).1] :=
    congrArg (·.2.acts) h.symm
  exact ⟨congrArg (·.2.kind) h.symm, by rw [hacts, hanswer]⟩

/-- The code was encrypted under the cipher, and that is what is noted. -/
theorem sealCode_of_ok {cipher : OutOfBand.Cipher} {code encrypted : Bytes}
    (h : sealCode S cipher code t = (.ok encrypted, t')) :
    cipher.encode S.suite code = .ok encrypted ∧
      t' = t.note (.codeSealed cipher code (.ok encrypted)) := by
  unfold sealCode at h
  rcases hencoded : cipher.encode S.suite code with _ | bs
  · simp only [hencoded] at h
    cases h
  · simp only [hencoded] at h
    cases h
    exact ⟨rfl, rfl⟩

/-- The stream has taken the frame, and that is what is noted. -/
theorem sendPlain_of_ok {frame : Bytes} (h : sendPlain S frame t = (.ok (), t')) :
    ∃ done, t'.kind = t.kind ∧ t'.stage = t.stage ∧
      t'.acts = t.acts ++ [.wrote ⟨none, false, frame⟩ .handshake done (.ok ())] := by
  unfold sendPlain at h
  rcases hw : S.stream.write ⟨none, false, frame⟩ .handshake t.stream with ⟨_ | _, done, stream⟩
  · simp only [Turn.write, hw] at h
    cases h
  · simp only [Turn.write, hw] at h
    cases h
    exact ⟨done, rfl, rfl, rfl⟩

/-- The frame was sealed under the key with a nonce of its own, and the stream has taken it. -/
theorem sendSealed_of_ok {frame : Bytes} {key : SessionKey} (hkey : t.key = some key)
    (h : sendSealed S frame t = (.ok (), t')) :
    ∃ nonce sealed done, key.sealWith S.suite nonce frame = .ok sealed ∧
      t'.acts = t.acts ++ [.wrote ⟨none, true, sealed⟩ .handshake done (.ok ())] := by
  unfold sendSealed at h
  simp only [hkey] at h
  rcases hsealed : key.encrypt S.suite frame t.tape with ⟨_ | sealed, tape⟩
  · simp only [hsealed] at h
    cases h
  rcases hw : S.stream.write ⟨none, true, sealed⟩ .handshake t.stream with ⟨_ | _, done, stream⟩
  · simp only [hsealed, Turn.write, hw] at h
    cases h
  · simp only [hsealed, Turn.write, hw] at h
    cases h
    exact ⟨(t.tape.draw nonceSize).1, sealed, done, congrArg Prod.fst hsealed, rfl⟩

end Work

/-! ## What comes of a call -/

namespace Association

variable (S) in
/-- The engine has agreed on a key, which was set where there was none, and our identifier was sent under
it; that is all that happened between the two turns. -/
structure Agreed (key : SessionKey) (t t' : Turn ε σ τ) : Prop where
  /-- Nothing is handed to the store. -/
  spares : Turn.Spares S t t'
  /-- There was no key before. -/
  fresh : t.key = none
  /-- The key is set. -/
  keyed : t'.key = some key
  /-- What was asked, what was answered, and what was sent. -/
  asked : ∃ reply nonce sealed done, reply.stage = .finished ∧ reply.key = some key ∧
    key.sealWith S.suite nonce (S.store.uniqueId t.store).toBytes = .ok sealed ∧
    t'.acts = t.acts ++ [.asked .verify (.ok reply),
      .wrote ⟨none, true, sealed⟩ .handshake done (.ok ())]

/-- A code is accepted for good only with a key to show for it. -/
theorem agreed_accept {t t' : Turn ε σ τ} (h : accept S t = (.ok (), t')) :
    ∃ key, Agreed S key t t' := by
  have haccepted := accepted_accept (S := S) t
  rw [h] at haccepted
  generalize hr : (Except.ok () : Except ErrorCode Unit) = r at haccepted
  cases haccepted with
  | refused _ => cases hr
  | @keyed reply key asked finished given fresh =>
    have hask := Work.prepares_ask (S := S) .verify t
    have hsend := Work.prepares_sendSealed (S := S) (S.store.uniqueId t.store).toBytes (keyed S key t)
    have hacts : (keyed S key t).acts = t.acts ++ [.asked .verify (.ok reply)] := by
      rw [← asked]
      rfl
    obtain ⟨nonce, sealed, done, hsealed, hwrote⟩ :=
      Work.sendSealed_of_ok (t := keyed S key t) rfl (Prod.ext hr.symm rfl)
    rw [hacts, List.append_assoc] at hwrote
    have hkeyed : Turn.Spares S t (keyed S key t) := hask.toSpares.trans (.of_eq rfl rfl)
    exact ⟨key, hkeyed.trans hsend.toSpares, fresh, hsend.key, reply, nonce, sealed, done, finished,
      given, hsealed, hwrote⟩

end Association

namespace Channel

variable (S) in
/-- What comes of a call after which the handshake goes on: the turn in which it is dealt with. -/
inductive Lasting (c : Channel ε σ τ) : Call → Turn ε σ τ → Prop where
  /-- Preparation, without the questions with which a handshake ends. -/
  | prepares {i : Call} {t : Turn ε σ τ} (prepares : Turn.Prepares S c.turn t)
    (unasked : ∀ a ∈ t.acts, a.isVerify = false ∧ a.isResume = false) : Lasting c i t
  /-- The code is accepted and the key agreed on. -/
  | agrees {i : Call} {t : Turn ε σ τ} {key : SessionKey} (accepts : Accepts S c i)
    (agreed : Association.Agreed S key c.turn t) : Lasting c i t

variable {c : Channel ε σ τ} {i : Call} {t : Turn ε σ τ}

/-- An acceptance after which the handshake goes on has led to a key. -/
theorem agreed_of_lasts (lasts : (c.turn.attempt (Association.accept S)).phase = .handshaking) :
    ∃ key, Association.Agreed S key c.turn (c.turn.attempt (Association.accept S)) :=
  Association.agreed_accept (Turn.attempt_of_lasts lasts)

/-- A step that prepares, and is not given up, is all that the turn is. -/
theorem prepares_attempt_of_lasts {w : Work ε σ τ Unit} (h : Turn.Prepares S c.turn (w c.turn).2)
    (lasts : (c.turn.attempt w).phase = .handshaking) :
    Turn.Prepares S c.turn (c.turn.attempt w) := by
  rwa [Turn.attempt_of_lasts lasts] at h

/-- A step that a frame sets off prepares, or it ends the handshake, or it is the acceptance of the
code. -/
theorem prepares_or_agreed_of_setsOff {m : DeviceMessage} {payload : Bytes} {w : Work ε σ τ Unit}
    (sound : c.Sound) (phase : c.phase = .handshaking) (opens : c.Opens S m payload)
    (step : SetsOff S c payload w) (lasts : (c.turn.attempt w).phase = .handshaking) :
    Turn.Prepares S c.turn (c.turn.attempt w) ∨ Accepts S c (.arrived m .handshake) ∧
      ∃ key, Association.Agreed S key c.turn (c.turn.attempt w) := by
  cases step with
  | init _ _ => exact .inl (prepares_attempt_of_lasts (Association.prepares_init payload _) lasts)
  | verify _ kind =>
    exact .inl (prepares_attempt_of_lasts (Reconnection.prepares_verify payload kind) lasts)
  | proceed _ _ =>
    exact .inl (prepares_attempt_of_lasts (Association.prepares_proceed payload _) lasts)
  | proceedReturning _ _ =>
    exact .inl (prepares_attempt_of_lasts (Reconnection.prepares_proceed payload _) lasts)
  | peerCode stage _ =>
    rcases Association.peerCode_refused_or (S := S) payload c.turn with
      ⟨error, h⟩ | ⟨cipher, code, pendingKey, device, hkind, hdecoded, h⟩
    · exact nomatch (Turn.attempt_of_lasts lasts).symm.trans h
    · rw [Turn.attempt_eq_settle, h, ← Turn.attempt_eq_settle] at lasts ⊢
      exact .inr ⟨.code phase opens stage hkind hdecoded, agreed_of_lasts lasts⟩
  | final _ _ =>
    rw [Turn.attempt_eq_settle] at lasts
    exact absurd lasts (phase_settle_of_stored (Association.stored_final payload phase))
  | @resume device _ kind =>
    have hfresh : c.key = none := sound.key_of_returning phase kind
    rw [Turn.attempt_eq_settle] at lasts
    exact absurd lasts
      (phase_settle_of_resumed (Reconnection.resumed_resume device payload phase hfresh))
  | stray _ => exact nomatch Turn.attempt_of_lasts lasts

/-- A call after which the handshake goes on only prepares, or it is the acceptance of a code and leads to a
key. -/
theorem prepares_or_agreed (sound : c.Sound) (h : Dispatched S c i t)
    (lasts : t.phase = .handshaking) :
    Turn.Prepares S c.turn t ∨ Accepts S c i ∧ ∃ key, Association.Agreed S key c.turn t := by
  cases h with
  | idle => exact .inl (.refl c.turn)
  | told _ _ _ => exact .inl ⟨.of_eq rfl rfl, rfl, rfl, rfl, Nat.le_refl _⟩
  | sent prepares _ _ _ _ => exact .inl prepares
  | unreadable _ | premature _ => exact absurd lasts (Turn.phase_fail_ne_handshaking _ _)
  | frame phase opens step => exact prepares_or_agreed_of_setsOff sound phase opens step lasts
  | accepted phase kind stage => exact .inr ⟨.user phase kind stage, agreed_of_lasts lasts⟩
  | closed _ => cases lasts

/-- A channel that may accept a code has no key yet. -/
theorem Accepts.fresh (h : Accepts S c i) (sound : c.Sound) : c.key = none := by
  apply Decidable.byContradiction
  intro hkey
  have hfinished := sound.finished hkey
  cases h with
  | user _ _ stage => rcases stage with stage | stage <;> cases hfinished.symm.trans stage
  | code _ _ stage _ _ => cases hfinished.symm.trans stage

/-- As long as the handshake lasts, one of the two things listed comes of every call. -/
theorem lasting_serve (sound : c.Sound) (lasts : (c.serve S i).phase = .handshaking) :
    Lasting S c i (c.serve S i) := by
  have hasks := questions_serve (S := S) i c
  rcases prepares_or_agreed sound (dispatched_serve (S := S) i c) lasts with h | ⟨haccepts, key, h⟩
  case inr => exact .agrees haccepts h
  refine .prepares h fun a ha => ⟨Bool.eq_false_iff.2 fun hverify => ?_,
    Bool.eq_false_iff.2 fun hresume => ?_⟩
  · have hoccasion := (hasks.occasion ha (by cases a <;> first | rfl | cases hverify)).1
    generalize c.serve S i = t at *
    cases hoccasion with
    | verify accepts =>
      -- to be asked for a key and to go on is to have one
      obtain ⟨key, hagreed⟩ := agreed_of_lasts lasts
      cases hagreed.keyed.symm.trans (h.key.trans (accepts.fresh sound))
    | _ => cases hverify
  · have hoccasion := (hasks.occasion ha (by cases a <;> first | rfl | cases hresume)).1
    generalize c.serve S i = t at *
    cases hoccasion with
    | @resume _ device payload _ _ phase _ _ kind =>
      have hfresh : c.key = none := sound.key_of_returning phase kind
      rw [Turn.attempt_eq_settle] at lasts
      exact phase_settle_of_resumed
        (Reconnection.resumed_resume device payload phase hfresh) lasts
    | _ => cases hresume

/-- Until the end of a handshake no secret is handed to the store. -/
theorem Lasting.spares (h : Lasting S c i t) : Turn.Spares S c.turn t := by
  cases h with
  | prepares prepares _ => exact prepares.toSpares
  | agrees _ agreed => exact agreed.spares

/-- Until the end of a handshake the engine is not asked to resume a session. -/
theorem Lasting.isResume (h : Lasting S c i t) : ∀ a ∈ t.acts, a.isResume = false := by
  cases h with
  | prepares _ unasked => exact fun a ha => (unasked a ha).2
  | agrees _ agreed =>
    obtain ⟨reply, nonce, sealed, done, -, -, -, hacts⟩ := agreed.asked
    intro a ha
    obtain rfl | rfl : a = _ ∨ a = _ := by simpa [hacts] using ha
    all_goals rfl

/-! ## Runs, call by call -/

/-- Between two states of a channel, in a run with given moves, the channel did nothing itself. -/
structure Rests (ms : List (Move σ τ)) (c c' : Channel ε σ τ) : Prop where
  /-- What the channel is for is the same. -/
  kind : c'.kind = c.kind
  /-- So is what the handshake has reached. -/
  stage : c'.stage = c.stage
  /-- So is the phase. -/
  phase : c'.phase = c.phase
  /-- So is the key. -/
  key : c'.key = c.key
  /-- The store is the same unless others have used it. -/
  store : c'.store = c.store ∨
    ∃ change tape, .onStore change ∈ ms ∧ c'.store = (change c.store tape).1

/-- What holds of the acts and of a channel at the start of a run holds at its end, if every call keeps
it and so does whatever happens between calls. -/
theorem serving_run {P : List Act → Channel ε σ τ → Prop} {c₀ : Channel ε σ τ}
    (sound : c₀.Sound) {ms : List (Move σ τ)} (start : P [] c₀)
    (call : ∀ {acts d i}, .call i ∈ ms → d.Sound → d.kind.returning = c₀.kind.returning → P acts d →
      P (acts ++ (d.serve S i).acts) (d.serve S i).toChannel)
    (rest : ∀ {acts d d'}, P acts d → Rests ms d d' → P acts d') :
    P (Outcome.actsOf (c₀.run S ms).1) (c₀.run S ms).2 := by
  have h : (c₀.run S ms).2.Sound ∧ (c₀.run S ms).2.kind.returning = c₀.kind.returning ∧
      P (Outcome.actsOf (c₀.run S ms).1) (c₀.run S ms).2 := by
    refine run_induction (P := fun os d => d.Sound ∧ d.kind.returning = c₀.kind.returning ∧
      P (Outcome.actsOf os) d) ⟨sound, rfl, start⟩ ?_
    rintro os d m hm ⟨hsound, hreturning, hP⟩
    refine ⟨sound_move m hsound, (returning_move m hsound).trans hreturning, ?_⟩
    rw [Outcome.actsOf_append, Outcome.actsOf_singleton]
    have hrest : ∀ {d'}, Rests ms d d' → P (Outcome.actsOf os ++ []) d' := by
      intro d' hrests
      rw [List.append_nil]
      exact rest hP hrests
    cases m with
    | call i =>
      show P (Outcome.actsOf os ++ (d.call S i).1.acts) (d.call S i).2
      rw [call_acts, call_channel]
      exact call hm hsound hreturning hP
    | onStore change => exact hrest ⟨rfl, rfl, rfl, rfl, .inr ⟨change, d.tape, hm, rfl⟩⟩
    | _ => exact hrest ⟨rfl, rfl, rfl, rfl, .inl rfl⟩
  exact h.2.2

/-- What holds of the acts and of a channel at the start of a run holds as long as its handshake lasts,
if every call after which the handshake goes on keeps it and so does whatever happens between calls. -/
theorem handshaking_run {P : List Act → Channel ε σ τ → Prop} {c₀ : Channel ε σ τ}
    (sound : c₀.Sound) {ms : List (Move σ τ)} (start : P [] c₀)
    (call : ∀ {acts d i}, .call i ∈ ms → d.Sound → d.kind.returning = c₀.kind.returning →
      (d.serve S i).phase = .handshaking → P acts d →
      P (acts ++ (d.serve S i).acts) (d.serve S i).toChannel)
    (rest : ∀ {acts d d'}, P acts d → Rests ms d d' → P acts d')
    (lasts : (c₀.run S ms).2.phase = .handshaking) :
    P (Outcome.actsOf (c₀.run S ms).1) (c₀.run S ms).2 := by
  refine serving_run (P := fun acts d => d.phase = .handshaking → P acts d) sound (fun _ => start)
    ?_ ?_ lasts
  · intro acts d i hi hsound hreturning hP hlasts
    have hbefore : d.phase = .handshaking := by
      apply Decidable.byContradiction
      intro hended
      exact (leads_served (served_serve (S := S) i hsound)).ne_handshaking hended hlasts
    exact call hi hsound hreturning hlasts (hP hbefore)
  · intro acts d d' hP hrests hlasts
    exact rest (hP (hrests.phase.symm.trans hlasts)) hrests

/-- What makes a channel established is a call, and until then its handshake goes on. -/
theorem exists_call_of_established {c₀ : Channel ε σ τ} (sound : c₀.Sound) {ms : List (Move σ τ)}
    {m : Move σ τ} (before : (c₀.run S ms).2.phase ≠ .established)
    (after : (c₀.run S (ms ++ [m])).2.phase = .established) :
    ∃ i, m = .call i ∧ (c₀.run S ms).2.phase = .handshaking ∧
      (c₀.run S (ms ++ [m])).2 = ((c₀.run S ms).2.serve S i).toChannel ∧
      Outcome.actsOf (c₀.run S (ms ++ [m])).1 =
        Outcome.actsOf (c₀.run S ms).1 ++ ((c₀.run S ms).2.serve S i).acts := by
  have hsound := sound_run (S := S) ms sound
  rw [run_concat] at after
  have hphase := (leads_move m hsound).handshaking_of_established before after
  cases m with
  | call i =>
    refine ⟨i, rfl, hphase, ?_, ?_⟩
    · rw [run_concat]
      exact call_channel ..
    · rw [acts_concat]
      exact congrArg _ (call_acts ..)
  | _ => exact absurd after before

/-! ## Stores in memory -/

end Channel

/-- A setting with a store in memory. -/
def Setting.inMemory (suite : Suite) (engine : Engine ε) (stream : MessageStream τ) :
    Setting ε MemoryStore τ :=
  { suite, engine, store := MemoryStore.store suite, stream }

/-- The bench with a store in memory. -/
def Bench.inMemory : Setting Script MemoryStore Outlet :=
  .inMemory .standard Script.engine Outlet.messages

namespace Channel

/-- In none of the moves do others change anything about a store in memory that could be seen. -/
def LeftAlone (suite : Suite) (ms : List (Move MemoryStore τ)) : Prop :=
  ∀ change, .onStore change ∈ ms → ∀ s tape, MemoryStore.Alike suite s (change s tape).1

variable {suite : Suite} {engine : Engine ε} {stream : MessageStream τ}
  {d d' : Channel ε MemoryStore τ}

/-- A store in memory gives the same answers before and after such a call. -/
theorem Lasting.alike {i : Call} {t : Turn ε MemoryStore τ}
    (h : Lasting (.inMemory suite engine stream) d i t) :
    MemoryStore.Alike suite d.store t.store := by
  have hsame : t.store = d.store := MemoryStore.eq_of_reads h.spares.reads
  rw [hsame]
  exact .refl d.store

/-- So it does between calls, if others leave it alone. -/
theorem Rests.alike {ms : List (Move MemoryStore τ)} (alone : LeftAlone suite ms)
    (h : Rests ms d d') : MemoryStore.Alike suite d.store d'.store := by
  rcases h.store with hsame | ⟨change, tape, hm, hchanged⟩
  · rw [hsame]
    exact .refl d.store
  · rw [hchanged]
    exact alone change hm d.store tape

end Channel

end DevicePairing
