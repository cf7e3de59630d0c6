import DevicePairing.Proofs.Channel.Preparation

/-!
# What the handlers of a handshake may do

The handlers of the early frames only prepare (`Association.prepares_init` and its like). The other three
have consequences, and for each of them a relation lists everything that may come of it:
`Association.Accepted` for the acceptance of a code, `Association.Stored` for the last frame of an
association, `Reconnection.Resumed` for the proof of a device that comes back. So it does for one of the
early frames, the one that answers our challenge (`Reconnection.Checked`), because of the hash that is
made of it. Each case of a relation names what was asked, what was answered, and how the turn is left, so
that later proofs take these cases apart and never a handler.
-/

namespace DevicePairing

/-- A handshake may always go on to its end. -/
theorem Stage.admits_finished (s : Stage) : s.admits .finished = true := by
  cases s <;> rfl

variable {ε σ τ : Type}

namespace Work

variable {S : Setting ε σ τ}

/-- A reply that a step goes on with is the one that the engine gave. -/
theorem answer_of_ask {call : EngineCall} {t t' : Turn ε σ τ} {reply : Reply}
    (h : ask S call t = (.ok reply, t')) :
    (S.engine.answer call t.engine t.tape).1 = .ok reply := by
  unfold ask at h
  rcases ha : S.engine.answer call t.engine t.tape with ⟨_ | given, engine, tape⟩
  · rw [ha] at h
    cases h
  · rw [ha] at h
    cases h
    rfl

/-- To finish is never a step back. -/
theorem advance_finished (t : Turn ε σ τ) :
    (advance .finished : Work ε σ τ Unit) t = (.ok (), { t with stage := .finished }) :=
  if_pos t.stage.admits_finished

end Work

namespace Association

variable {S : Setting ε σ τ}

/-! ## The early frames of an association -/

/-- The first frame is only passed on to the engine. -/
theorem prepares_init (payload : Bytes) : Work.Prepares S (init S payload) :=
  (asksFirst_init payload).footprint.prepares (by decide)

/-- The code is remembered in place of the former one, so the duty is only kept from a turn that has
the key and the device the code is remembered with. -/
theorem prepares_sendCode {cipher : OutOfBand.Cipher} {pendingKey : Option SessionKey}
    {device : Option Uuid} (reply : Reply) {t : Turn ε σ τ}
    (h : t.kind.duty = .association .visual pendingKey device) :
    Turn.Prepares S t (sendCode S cipher pendingKey device reply t).2 := by
  unfold sendCode
  dsimp only
  split
  · exact Work.prepares_throw_bind _ _ t
  refine Work.prepares_bind_at (Work.prepares_require _ _ t) fun code t₁ _ h₁ => ?_
  have hsealed := (Work.footprint_sealCode (S := S) cipher code).prepares (by decide) t₁
  refine Work.prepares_bind_at hsealed fun encrypted t₂ _ h₂ => ?_
  refine Work.prepares_bind_at (Work.prepares_setKind ?_) fun _ t₃ _ _ => ?_
  · rw [h₂.duty, h₁.duty, h]
    rfl
  · have hrest := (Work.footprint_advance (S := S) reply.stage).bind fun _ => Work.footprint_sendPlain encrypted
    exact hrest.prepares (by decide) t₃

/-- The second frame has a code shown or sent, and that is no more than to prepare its acceptance. -/
theorem prepares_proceed (payload : Bytes) : Work.Prepares S (proceed S payload) := by
  intro t₀
  refine Work.prepares_bind_at (Work.prepares_ask _ t₀) fun reply t _ _ => ?_
  refine Work.prepares_get_bind ?_
  have hshow := (ends_showCode (S := S) reply).1.prepares (by decide) t
  rcases hkind : t.kind with ⟨_ | ⟨cipher, code⟩, pendingKey, device⟩ | _
  · exact hshow
  · exact prepares_sendCode reply (by rw [hkind]; rfl)
  · exact hshow

/-! ## The acceptance of a code -/

variable (S) in
/-- The turn in which the engine has agreed on a key and the key is set, but nothing is sent yet. -/
def keyed (key : SessionKey) (t : Turn ε σ τ) : Turn ε σ τ :=
  { (Work.ask S .verify t).2 with
    stage := .finished
    key := some key
    kind := match t.kind with
      | .association verification _ device => .association verification (some key) device
      | kind => kind }

variable (S) in
/-- What the acceptance of a code may come to: the answer of the handler and the turn it leaves. -/
inductive Accepted (t : Turn ε σ τ) : Except ErrorCode Unit → Turn ε σ τ → Prop where
  /-- There is no key, or there was one before. -/
  | refused {code : ErrorCode} {t' : Turn ε σ τ} (h : Turn.Prepares S t t') :
    Accepted t (.error code) t'
  /-- The engine finished with a key, which is set; whether our identifier can be sent under it is
  another matter. -/
  | keyed {reply : Reply} {key : SessionKey}
    (asked : (S.engine.answer .verify t.engine t.tape).1 = .ok reply)
    (finished : reply.stage = .finished) (given : reply.key = some key) (fresh : t.key = none) :
    Accepted t (Work.sendSealed S (S.store.uniqueId t.store).toBytes (keyed S key t)).1
      (Work.sendSealed S (S.store.uniqueId t.store).toBytes (keyed S key t)).2

/-- With a key from the engine and none set before, only the sending of our identifier is left. -/
theorem accept_of_key {t t₁ : Turn ε σ τ} {reply : Reply} {key : SessionKey}
    (asked : Work.ask S .verify t = (.ok reply, t₁)) (finished : reply.stage = .finished)
    (given : reply.key = some key) (fresh : t₁.key = none) :
    accept S t = Work.sendSealed S (S.store.uniqueId t.store).toBytes (keyed S key t) := by
  have hkept : t₁.kind = t.kind ∧ t₁.store = t.store :=
    ⟨congrArg (·.2.kind) asked.symm, congrArg (·.2.store) asked.symm⟩
  have hkeyed : keyed S key t = { t₁ with
      stage := .finished
      key := some key
      kind := match t₁.kind with
        | .association verification _ device => .association verification (some key) device
        | kind => kind } := by
    rw [hkept.1, keyed, asked]
  rw [hkeyed, ← hkept.2]
  unfold accept
  rcases hkind : t₁.kind with ⟨verification, pendingKey, device⟩ | _ <;>
    simp [Work.bind_apply, asked, finished, given, Work.require, Work.pure_apply,
      Work.advance_finished, Work.setKey, fresh, Work.get_apply, Work.setKind, hkind]

/-- Nothing else can come of the acceptance of a code. -/
theorem accepted_accept (t : Turn ε σ τ) : Accepted S t (accept S t).1 (accept S t).2 := by
  have hask := Work.prepares_ask (S := S) .verify t
  rcases ha : Work.ask S .verify t with ⟨code | reply, t₁⟩
  · rw [ha] at hask
    have : accept S t = (.error code, t₁) := by simp [accept, Work.bind_apply, ha]
    rw [this]
    exact .refused hask
  rw [ha] at hask
  by_cases hfinished : reply.stage = .finished
  case neg =>
    have : accept S t = (.error .invalidState, t₁) := by
      simp [accept, Work.bind_apply, ha, hfinished, Work.throw_apply]
    rw [this]
    exact .refused hask
  rcases hgiven : reply.key with _ | key
  · have : accept S t = (.error .invalidEncryptionKey, t₁) := by
      simp [accept, Work.bind_apply, ha, hfinished, hgiven, Work.require, Work.throw_apply]
    rw [this]
    exact .refused hask
  rcases hfresh : t₁.key with _ | former
  · rw [accept_of_key ha hfinished hgiven hfresh]
    exact .keyed (Work.answer_of_ask ha) hfinished hgiven (hask.key.symm.trans hfresh)
  · have : accept S t = (.error .invalidState, { t₁ with stage := .finished }) := by
      simp [accept, Work.bind_apply, ha, hfinished, hgiven, Work.require, Work.pure_apply,
        Work.advance_finished, Work.setKey, hfresh]
    rw [this]
    refine .refused ⟨hask.toSpares.trans (.of_eq rfl rfl), hask.key, hask.phase, hask.duty, ?_⟩
    exact Nat.le_trans hask.rank (Stage.admits_iff.1 t₁.stage.admits_finished)

/-- The peer's code is either refused on the spot or as good as the user's acceptance. -/
theorem peerCode_cases (payload : Bytes) (t : Turn ε σ τ) :
    (∃ code, peerCode S payload t = (.error code, t)) ∨ peerCode S payload t = accept S t := by
  unfold peerCode
  rcases hkind : t.kind with ⟨_ | ⟨cipher, _ | code⟩, _, _⟩ | _ <;>
    simp only [Work.bind_apply, Work.get_apply, hkind, Work.throw_apply]
  case association.outOfBand.some =>
    rcases cipher.decode S.suite payload with _ | peer
    · exact .inl ⟨_, rfl⟩
    · by_cases hsame : peer = code
      · exact .inr (congrFun (if_pos hsame) t)
      · exact .inl ⟨.invalidVerification, congrFun (if_neg hsame) t⟩
  all_goals exact .inl ⟨_, rfl⟩

/-! ## The last frame of an association -/

variable (S) in
/-- What the last frame may come to: the answer of the handler and the turn it leaves. -/
inductive Stored (payload : Bytes) (t : Turn ε σ τ) : Except ErrorCode Unit → Turn ε σ τ → Prop where
  /-- The frame does not start with the identifier of a device. -/
  | unnamed (named : deviceId? payload = none) : Stored payload t (.error .invalidDeviceId) t
  /-- No key waits for the frame. -/
  | keyless {device : Uuid} (named : deviceId? payload = some device)
    (kind : ∀ verification key former, t.kind ≠ .association verification (some key) former) :
    Stored payload t (.error .invalidEncryptionKey) t
  /-- The store refuses the key. -/
  | keyRefused {verification : Verification} {key : SessionKey} {former : Option Uuid}
    {device : Uuid} {e : StorageError} {s : σ} {tape : Tape}
    (kind : t.kind = .association verification (some key) former)
    (named : deviceId? payload = some device)
    (keyKept : S.store.saveKey device key.toBytes t.store t.tape = (.error e, s, tape)) :
    Stored payload t (.error .storage)
      { t with
        kind := .association verification none former
        store := s
        tape := tape
        acts := t.acts ++ [.keySaved device key.toBytes (.error e)] }
  /-- The store takes the key and refuses the challenge secret. -/
  | secretRefused {verification : Verification} {key : SessionKey} {former : Option Uuid}
    {device : Uuid} {e : StorageError} {s s' : σ} {tape tape' : Tape}
    (kind : t.kind = .association verification (some key) former)
    (named : deviceId? payload = some device)
    (keyKept : S.store.saveKey device key.toBytes t.store t.tape = (.ok (), s, tape))
    (secretKept : S.store.saveSecret device (payload.drop deviceIdSize) s tape
      = (.error e, s', tape')) :
    Stored payload t (.error .storage)
      { t with
        kind := .association verification none former
        store := s'
        tape := tape'
        acts := t.acts ++ [.keySaved device key.toBytes (.ok ()),
          .secretSaved device (payload.drop deviceIdSize) (.error e)] }
  /-- The store takes both, and the channel is established. -/
  | stored {verification : Verification} {key : SessionKey} {former : Option Uuid}
    {device : Uuid} {s s' : σ} {tape tape' : Tape}
    (kind : t.kind = .association verification (some key) former)
    (named : deviceId? payload = some device)
    (keyKept : S.store.saveKey device key.toBytes t.store t.tape = (.ok (), s, tape))
    (secretKept : S.store.saveSecret device (payload.drop deviceIdSize) s tape
      = (.ok (), s', tape')) :
    Stored payload t (.ok ())
      { t with
        kind := .association verification none (some device)
        phase := .established
        store := s'
        tape := tape'
        acts := t.acts ++ [.keySaved device key.toBytes (.ok ()),
          .secretSaved device (payload.drop deviceIdSize) (.ok ())]
        events := t.events ++ [.deviceId device, .established] }

/-- Nothing else can come of the last frame of an association. -/
theorem stored_final (payload : Bytes) {t : Turn ε σ τ} (h : t.phase = .handshaking) :
    Stored S payload t (final S payload t).1 (final S payload t).2 := by
  obtain ⟨⟨r, t'⟩, hr⟩ : ∃ p, final S payload t = p := ⟨_, rfl⟩
  rw [hr]
  unfold final at hr
  rw [Work.bind_apply] at hr
  rcases hnamed : deviceId? payload with _ | device
  · simp only [hnamed, Work.require, Work.throw_apply] at hr
    cases hr
    exact .unnamed hnamed
  simp only [hnamed, Work.require, Work.pure_apply, Work.bind_apply, Work.get_apply] at hr
  rcases hkind : t.kind with ⟨verification, _ | key, former⟩ | ⟨_, _, _⟩
  · simp only [hkind, Work.throw_apply] at hr
    cases hr
    exact .keyless hnamed (by simp [hkind])
  case reconnection =>
    simp only [hkind, Work.throw_apply] at hr
    cases hr
    exact .keyless hnamed (by simp [hkind])
  simp only [hkind, Work.bind_apply, Work.setKind, Work.saveKey] at hr
  rcases hk : S.store.saveKey device key.toBytes t.store t.tape with ⟨e | _, s, tape⟩
  · simp only [hk, Turn.note] at hr
    cases hr
    exact .keyRefused hkind hnamed hk
  simp only [hk, Turn.note, Work.saveSecret] at hr
  rcases hs : S.store.saveSecret device (payload.drop deviceIdSize) s tape with ⟨e | _, s', tape'⟩
  · simp only [hs, List.append_assoc, List.singleton_append] at hr
    cases hr
    exact .secretRefused hkind hnamed hk hs
  · simp only [hs, List.append_assoc, List.singleton_append, Work.announce, Turn.announce,
      Work.establish, h, Phase.transition] at hr
    cases hr
    exact .stored hkind hnamed hk hs

end Association

namespace Reconnection

variable {S : Setting ε σ τ}

/-! ## The early frames of a reconnection -/

/-- The latch that the peer is verified is no part of the duty; the device is. -/
theorem prepares_verify {device : Uuid} {expected : Option Bytes} {verified : Bool}
    (payload : Bytes) {t : Turn ε σ τ} (h : t.kind = .reconnection device expected verified) :
    Turn.Prepares S t (verify S device expected payload t).2 := by
  unfold verify
  refine Work.prepares_bind_at (Work.prepares_require _ _ t) fun expected t₁ _ h₁ => ?_
  dsimp only
  split
  · exact Work.prepares_throw_bind _ _ t₁
  have hhashed (challenge : Bytes) := (Work.footprint_hash (S := S) device challenge).prepares (by decide)
  refine Work.prepares_bind_at (hhashed _ t₁) fun proof t₂ _ h₂ => ?_
  have hsent := (Work.footprint_sendPlain (S := S) proof).prepares (by decide)
  refine Work.prepares_bind_at (hsent t₂) fun _ t₃ _ h₃ => ?_
  refine Work.prepares_setKind ?_
  rw [h₃.duty, h₂.duty, h₁.duty, h]
  rfl

/-- The second frame is only passed on to the engine. -/
theorem prepares_proceed (payload : Bytes) : Work.Prepares S (proceed S payload) :=
  (asksFirst_proceed payload).footprint.prepares (by decide)

variable (S) in
/-- What the answer to our challenge may come to: the answer of the handler and the turn it leaves. -/
inductive Checked (device : Uuid) (expected payload : Bytes) (t : Turn ε σ τ) :
    Except ErrorCode Unit → Turn ε σ τ → Prop where
  /-- The frame does not start as it should. -/
  | refused (differs : ¬ expected <+: payload) :
    Checked device expected payload t (.error .invalidEncryptionKey) t
  /-- The challenge of the peer cannot be hashed. -/
  | unhashed {challenge : Bytes} {e : StorageError} {s : σ} (starts : payload = expected ++ challenge)
    (hashed : S.store.hash S.suite device challenge t.store = (.error e, s)) :
    Checked device expected payload t (.error .storage)
      { t with
        store := s
        acts := t.acts ++ [.hashed device challenge (.error e)] }
  /-- The challenge of the peer is hashed, but the answer cannot be sent. -/
  | unanswered {challenge : Bytes} {proof : Block 32} {s : σ} {e : StreamError}
    {done : List StreamAct} {stream : τ} (starts : payload = expected ++ challenge)
    (hashed : S.store.hash S.suite device challenge t.store = (.ok proof, s))
    (written : S.stream.write ⟨none, false, proof.val⟩ .handshake t.stream =
      (.error e, done, stream)) :
    Checked device expected payload t (.error .invalidMessage)
      { t with
        store := s
        stream := stream
        acts := t.acts ++ [.hashed device challenge (.ok proof),
          .wrote ⟨none, false, proof.val⟩ .handshake done (.error e)] }
  /-- The challenge of the peer is answered, and the peer is verified. -/
  | answered {challenge : Bytes} {proof : Block 32} {s : σ} {done : List StreamAct} {stream : τ}
    (starts : payload = expected ++ challenge)
    (hashed : S.store.hash S.suite device challenge t.store = (.ok proof, s))
    (written : S.stream.write ⟨none, false, proof.val⟩ .handshake t.stream =
      (.ok (), done, stream)) :
    Checked device expected payload t (.ok ())
      { t with
        kind := .reconnection device (some expected) true
        store := s
        stream := stream
        acts := t.acts ++ [.hashed device challenge (.ok proof),
          .wrote ⟨none, false, proof.val⟩ .handshake done (.ok ())] }

/-- Nothing else can come of the frame that should answer our challenge. -/
theorem checked_verify (device : Uuid) (expected payload : Bytes) (t : Turn ε σ τ) :
    Checked S device expected payload t (verify S device (some expected) payload t).1
      (verify S device (some expected) payload t).2 := by
  unfold verify
  by_cases hstarts : payload.take expected.length = expected
  case neg =>
    simp only [Work.bind_apply, Work.require, Work.pure_apply, ne_eq, hstarts, not_false_eq_true,
      if_true, Work.throw_apply]
    exact .refused fun h => hstarts (List.prefix_iff_eq_take.1 h).symm
  have hpayload : payload = expected ++ payload.drop expected.length := by
    rw [← congrArg (· ++ payload.drop expected.length) hstarts, List.take_append_drop]
  simp only [Work.bind_apply, Work.require, Work.pure_apply, ne_eq, hstarts, not_true, if_false,
    Work.hash]
  rcases hh : S.store.hash S.suite device (payload.drop expected.length) t.store with ⟨e | proof, s⟩
  · exact .unhashed hpayload hh
  rcases hw : S.stream.write ⟨none, false, proof.val⟩ .handshake t.stream with ⟨e | _, done, stream⟩
  · simp only [Turn.note, Work.sendPlain, Turn.write, hw, List.append_assoc, List.singleton_append]
    exact .unanswered hpayload hh hw
  · simp only [Turn.note, Work.sendPlain, Turn.write, hw, Work.setKind, List.append_assoc,
      List.singleton_append]
    exact .answered hpayload hh hw

/-! ## The proof of a device that comes back -/

variable (S) in
/-- The stored key of the device was looked up and the engine agreed on a new one and on an answer to
the peer; that is all that happened between the two turns. -/
structure Agreed (device : Uuid) (payload : Bytes) (key : SessionKey) (next : Bytes)
    (t t' : Turn ε σ τ) : Prop where
  /-- Nothing but preparation. -/
  prepares : Turn.Prepares S t t'
  /-- What was asked, and what was answered. -/
  asked : ∃ previous reply, (S.store.key device t.store).1 = .ok (some previous) ∧
    reply.stage = .finished ∧ reply.key = some key ∧ reply.next = some next ∧
    t'.acts = t.acts ++ [.keyRead device (.ok (some previous)),
      .asked (.resume payload previous) (.ok reply)]

variable (S) in
/-- What the proof of the peer may come to: the answer of the handler and the turn it leaves. -/
inductive Resumed (device : Uuid) (payload : Bytes) (t : Turn ε σ τ) :
    Except ErrorCode Unit → Turn ε σ τ → Prop where
  /-- There is no key to replace, or none to replace it by, or nothing to answer. -/
  | refused {code : ErrorCode} {t' : Turn ε σ τ} (h : Turn.Prepares S t t') :
    Resumed device payload t (.error code) t'
  /-- The store refuses the new key. -/
  | keyRefused {key : SessionKey} {next : Bytes} {t' : Turn ε σ τ} {e : StorageError} {s : σ}
    {tape : Tape} (agreed : Agreed S device payload key next t t')
    (keyKept : S.store.saveKey device key.toBytes t'.store t'.tape = (.error e, s, tape)) :
    Resumed device payload t (.error .storage)
      { t' with
        store := s
        tape := tape
        acts := t'.acts ++ [.keySaved device key.toBytes (.error e)] }
  /-- The store takes the new key, but the answer that lets the peer know of it cannot be sent. -/
  | unanswered {key : SessionKey} {next : Bytes} {t' : Turn ε σ τ} {e : StreamError} {s : σ}
    {tape : Tape} {done : List StreamAct} {stream : τ}
    (agreed : Agreed S device payload key next t t')
    (keyKept : S.store.saveKey device key.toBytes t'.store t'.tape = (.ok (), s, tape))
    (written : S.stream.write ⟨none, false, next⟩ .handshake t'.stream = (.error e, done, stream)) :
    Resumed device payload t (.error .invalidMessage)
      { t' with
        stage := .finished
        key := some key
        store := s
        tape := tape
        stream := stream
        acts := t'.acts ++ [.keySaved device key.toBytes (.ok ()),
          .wrote ⟨none, false, next⟩ .handshake done (.error e)] }
  /-- The new key is stored, the peer is answered, and the channel is established. -/
  | resumed {key : SessionKey} {next : Bytes} {t' : Turn ε σ τ} {s : σ}
    {tape : Tape} {done : List StreamAct} {stream : τ}
    (agreed : Agreed S device payload key next t t')
    (keyKept : S.store.saveKey device key.toBytes t'.store t'.tape = (.ok (), s, tape))
    (written : S.stream.write ⟨none, false, next⟩ .handshake t'.stream = (.ok (), done, stream)) :
    Resumed device payload t (.ok ())
      { t' with
        stage := .finished
        phase := .established
        key := some key
        store := s
        tape := tape
        stream := stream
        acts := t'.acts ++ [.keySaved device key.toBytes (.ok ()),
          .wrote ⟨none, false, next⟩ .handshake done (.ok ())]
        events := t'.events ++ [.established] }

/-- What is left once the engine has agreed: to store the key, to set it and to answer. -/
theorem resumed_of_agreed {device : Uuid} {payload next : Bytes} {key : SessionKey}
    {t t' : Turn ε σ τ} (agreed : Agreed S device payload key next t t')
    (phase : t.phase = .handshaking) (fresh : t.key = none) :
    Resumed S device payload t
      ((do Work.saveKey S device key.toBytes
           Work.advance .finished
           Work.setKey key
           Work.sendPlain S next
           Work.establish : Work ε σ τ Unit) t').1
      ((do Work.saveKey S device key.toBytes
           Work.advance .finished
           Work.setKey key
           Work.sendPlain S next
           Work.establish : Work ε σ τ Unit) t').2 := by
  have hphase : t'.phase = .handshaking := agreed.prepares.phase.trans phase
  have hkey : t'.key = none := agreed.prepares.key.trans fresh
  rcases hk : S.store.saveKey device key.toBytes t'.store t'.tape with ⟨e | _, s, tape⟩
  · simp only [Work.bind_apply, Work.saveKey, hk, Turn.note]
    exact .keyRefused agreed hk
  rcases hw : S.stream.write ⟨none, false, next⟩ .handshake t'.stream with ⟨e | _, done, stream⟩
  · simp only [Work.bind_apply, Work.saveKey, hk, Turn.note, Work.advance_finished, Work.setKey, hkey,
      Work.sendPlain, Turn.write, hw, List.append_assoc, List.singleton_append]
    exact .unanswered agreed hk hw
  · simp only [Work.bind_apply, Work.saveKey, hk, Turn.note, Work.advance_finished, Work.setKey, hkey,
      Work.sendPlain, Turn.write, hw, List.append_assoc, List.singleton_append, Work.establish,
      Turn.announce, hphase, Phase.transition]
    exact .resumed agreed hk hw

/-- Nothing else can come of the proof of a device that comes back. -/
theorem resumed_resume (device : Uuid) (payload : Bytes) {t : Turn ε σ τ}
    (phase : t.phase = .handshaking) (fresh : t.key = none) :
    Resumed S device payload t (resume S device payload t).1 (resume S device payload t).2 := by
  unfold resume
  have hread := Work.prepares_readKey (S := S) device t
  rw [Work.bind_apply]
  rcases hr : S.store.key device t.store with ⟨e | _ | previous, s⟩
  · simp only [Work.readKey, hr] at hread ⊢
    exact .refused hread
  · simp only [Work.readKey, hr, Work.bind_apply, Work.require, Work.throw_apply] at hread ⊢
    exact .refused hread
  obtain ⟨t₁, ht₁⟩ : ∃ t₁, Work.readKey S device t = (.ok (some previous), t₁) :=
    ⟨_, by simp only [Work.readKey, hr]; rfl⟩
  have hacts₁ : t₁.acts = t.acts ++ [.keyRead device (.ok (some previous))] := by
    have h := congrArg (·.2.acts) ht₁
    simp only [Work.readKey, hr] at h
    exact h.symm
  rw [ht₁] at hread
  have hask := Work.prepares_ask (S := S) (.resume payload previous) t₁
  simp only [ht₁, Work.bind_apply, Work.require, Work.pure_apply]
  rcases ha : Work.ask S (.resume payload previous) t₁ with ⟨code | reply, t₂⟩
  · rw [ha] at hask
    exact .refused (hread.trans hask)
  rw [ha] at hask
  have hprep := hread.trans hask
  have hacts₂ : t₂.acts = t₁.acts ++ [.asked (.resume payload previous) (.ok reply)] := by
    have h := congrArg (·.2.acts) ha
    rw [← Work.answer_of_ask ha]
    exact h.symm
  dsimp only
  by_cases hfinished : reply.stage ≠ .finished
  · rw [if_pos hfinished]
    exact .refused hprep
  rw [if_neg hfinished]
  rcases hkey : reply.key with _ | key
  · exact .refused hprep
  rcases hnext : reply.next with _ | next
  · exact .refused hprep
  have hread : (S.store.key device t.store).1 = .ok (some previous) := by rw [hr]
  refine resumed_of_agreed
    ⟨hprep, previous, reply, hread, Decidable.not_not.1 hfinished, hkey, hnext, ?_⟩ phase fresh
  rw [hacts₂, hacts₁, List.append_assoc]
  rfl

end Reconnection

end DevicePairing
