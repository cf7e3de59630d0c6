import DevicePairing.Proofs.Channel.Footprint

/-!
# Steps that only prepare

Most steps of a handshake talk to the engine and to the peer, look things up, and go on to the next
stage. They do not touch the key, the life of the channel, the key that waits to be stored or the device,
and they hand no secret to the store: they only prepare for the three steps that do, which are the
acceptance of a code, the last frame of an association and the resumption of a session.

`Turn.Spares` says that no secret is handed to the store, and `Turn.Prepares` that a step only prepares.
Both are preorders. A step whose footprint has nothing but kinds of things that prepare
(`Touch.preparing`) therefore prepares (`Work.Footprint.prepares`). What the channel remembers for its kind
is not among them, since that depends on what it has remembered before; where it changes, the step is taken
apart (`Work.prepares_bind_at`).
-/

namespace DevicePairing

/-- Whether an act hands a secret to the store. -/
def Act.isSave : Act → Bool
  | .keySaved .. | .secretSaved .. => true
  | _ => false

/-- Whether an act writes to the stream. -/
def Act.isWrite : Act → Bool
  | .wrote .. => true
  | _ => false

/-- What a channel is for, without how far the verification of the peer has come: the key that waits to
be stored and the device. -/
def Kind.duty : Kind → Kind
  | .association _ pendingKey device => .association .visual pendingKey device
  | .reconnection device _ _ => .reconnection device none false

/-- A store comes from one state to another by being asked for what it holds. -/
inductive SecretStore.Reads {σ : Type} (store : SecretStore σ) : σ → σ → Prop where
  /-- Nothing was asked. -/
  | refl (s : σ) : Reads store s s
  /-- The key of a device was looked up last. -/
  | key {s s' : σ} (device : Uuid) (h : Reads store s s') : Reads store s (store.key device s').2
  /-- The challenge secret of a device was looked up last. -/
  | secret {s s' : σ} (device : Uuid) (h : Reads store s s') :
    Reads store s (store.secret device s').2

/-- What is looked up one after another is looked up. -/
theorem SecretStore.Reads.trans {σ : Type} {store : SecretStore σ} {s s' s'' : σ}
    (h : store.Reads s s') (h' : store.Reads s' s'') : store.Reads s s'' := by
  induction h' with
  | refl => exact h
  | key device _ ih => exact .key device ih
  | secret device _ ih => exact .secret device ih

variable {ε σ τ : Type} (S : Setting ε σ τ)

/-! ## The two relations -/

namespace Turn

/-- Between two moments of a turn no secret is handed to the store. -/
structure Spares (t t' : Turn ε σ τ) : Prop where
  /-- The store is only asked for what it holds. -/
  reads : S.store.Reads t.store t'.store
  /-- The acts done meanwhile. -/
  acts : ∃ done, t'.acts = t.acts ++ done ∧ ∀ a ∈ done, a.isSave = false

/-- Between two moments of a turn nothing happens but preparation. -/
structure Prepares (t t' : Turn ε σ τ) : Prop extends Spares S t t' where
  /-- The key is what it was. -/
  key : t'.key = t.key
  /-- So is the phase. -/
  phase : t'.phase = t.phase
  /-- So are the key that waits and the device. -/
  duty : t'.kind.duty = t.kind.duty
  /-- The handshake does not fall back. -/
  rank : t.stage.rank ≤ t'.stage.rank

variable {S} {t t' t'' : Turn ε σ τ}

/-- Where neither the store nor the acts have changed, nothing was handed over. -/
theorem Spares.of_eq (store : t'.store = t.store) (acts : t'.acts = t.acts) : Spares S t t' :=
  ⟨store ▸ .refl _, [], by simp [acts], by simp⟩

/-- Nothing is handed over in no time. -/
theorem Spares.refl (t : Turn ε σ τ) : Spares S t t := .of_eq rfl rfl

/-- If nothing is handed over twice, nothing is. -/
theorem Spares.trans (h : Spares S t t') (h' : Spares S t' t'') : Spares S t t'' := by
  obtain ⟨done, hdone, hnone⟩ := h.acts
  obtain ⟨done', hdone', hnone'⟩ := h'.acts
  refine ⟨h.reads.trans h'.reads, done ++ done', ?_, ?_⟩
  · rw [hdone', hdone, List.append_assoc]
  · intro a ha
    rcases List.mem_append.1 ha with ha | ha
    · exact hnone a ha
    · exact hnone' a ha

/-- To do nothing prepares. -/
theorem Prepares.refl (t : Turn ε σ τ) : Prepares S t t := ⟨.refl t, rfl, rfl, rfl, Nat.le_refl _⟩

/-- What prepares, one after another, prepares. -/
theorem Prepares.trans (h : Prepares S t t') (h' : Prepares S t' t'') : Prepares S t t'' :=
  ⟨h.toSpares.trans h'.toSpares, h'.key.trans h.key, h'.phase.trans h.phase,
    h'.duty.trans h.duty, Nat.le_trans h.rank h'.rank⟩

/-- A step that does one act and changes nothing else that matters prepares. -/
theorem Prepares.of_note {a : Act} (ha : a.isSave = false) (reads : S.store.Reads t.store t'.store)
    (acts : t'.acts = t.acts ++ [a]) (key : t'.key = t.key) (phase : t'.phase = t.phase)
    (kind : t'.kind = t.kind) (stage : t'.stage = t.stage) : Prepares S t t' := by
  refine ⟨⟨reads, [a], acts, ?_⟩, key, phase, by rw [kind], Nat.le_of_eq (by rw [stage])⟩
  intro b hb
  rw [List.mem_singleton.1 hb]
  exact ha

end Turn

/-! ## Steps of which it holds -/

/-- The kinds of things that only prepare. -/
def Touch.preparing : List Touch := [.ask, .lookUp, .hash, .sealCode, .draw, .write, .stage, .tell]

namespace Turn

variable {S : Setting ε σ τ} {t t' : Turn ε σ τ}

/-- To hash a challenge is to look up the secret for it. -/
theorem reads_hash (device : Uuid) (challenge : Bytes) (s : σ) :
    S.store.Reads s (S.store.hash S.suite device challenge s).2 := by
  have h : (S.store.hash S.suite device challenge s).2 = (S.store.secret device s).2 := by
    unfold SecretStore.hash
    rcases S.store.secret device s with ⟨_ | _ | _, _⟩ <;> rfl
  exact h ▸ .secret device (.refl s)

/-- What a write leaves is known apart from the stream's own answer. -/
theorem prepares_write (m : DeviceMessage) (op : Operation) (t : Turn ε σ τ) :
    Prepares S t (t.write S m op).2 :=
  .of_note (a := .wrote m op (S.stream.write m op t.stream).2.1 (S.stream.write m op t.stream).1) rfl
    (.refl _) rfl rfl rfl rfl rfl

/-- To draw from the tape changes nothing else. -/
theorem prepares_draw (t : Turn ε σ τ) (tape : Tape) : Prepares S t { t with tape } :=
  ⟨.of_eq rfl rfl, rfl, rfl, rfl, Nat.le_refl _⟩

/-- One thing of such a kind prepares. -/
theorem Touched.prepares {x : Touch} (h : Touched S x t t') (mild : x ∈ Touch.preparing) :
    Prepares S t t' := by
  cases h with
  | ask call t =>
    exact .of_note (a := .asked call (S.engine.answer call t.engine t.tape).1) rfl (.refl _) rfl rfl
      rfl rfl rfl
  | lookUp device t =>
    exact .of_note (a := .keyRead device (S.store.key device t.store).1) rfl
      (.key device (.refl t.store)) rfl rfl rfl rfl rfl
  | hash device challenge t =>
    exact .of_note (a := .hashed device challenge (S.store.hash S.suite device challenge t.store).1)
      rfl (reads_hash device challenge t.store) rfl rfl rfl rfl rfl
  | sealCode cipher code t =>
    exact .of_note (a := .codeSealed cipher code (cipher.encode S.suite code)) rfl (.refl _) rfl rfl
      rfl rfl rfl
  | draw tape t => exact prepares_draw t tape
  | write m t => exact prepares_write m .handshake t
  | stage admitted => exact ⟨.of_eq rfl rfl, rfl, rfl, rfl, Stage.admits_iff.1 admitted⟩
  | tell _ t => exact ⟨.of_eq rfl rfl, rfl, rfl, rfl, Nat.le_refl _⟩
  | keepKey _ _ _ | keepSecret _ _ _ | key _ _ | kind _ _ | establish _ => exact absurd mild (by decide)

/-- So do any number of them, one after another. -/
theorem Reaches.prepares {touches : List Touch} (h : Reaches S touches t t')
    (mild : ∀ x ∈ touches, x ∈ Touch.preparing) : Prepares S t t' := by
  induction h with
  | refl => exact .refl t
  | tail _ touched ih =>
    obtain ⟨x, hx, htouched⟩ := touched
    exact ih.trans (htouched.prepares (mild x hx))

end Turn

namespace Work

/-- Whatever turn it starts from, a step only prepares. -/
def Prepares {α : Type} (w : Work ε σ τ α) : Prop := ∀ t, Turn.Prepares S t (w t).2

variable {S} {α β : Type}

/-- A step that does nothing but what prepares. -/
theorem Footprint.prepares {touches : List Touch} {w : Work ε σ τ α} (h : Footprint S touches w)
    (mild : ∀ x ∈ touches, x ∈ Touch.preparing) : Prepares S w :=
  fun t => (h t).prepares mild

/-- Two steps from a given turn on; what the first one did is known to the second. -/
theorem prepares_bind_at {x : Work ε σ τ α} {f : α → Work ε σ τ β} {t : Turn ε σ τ}
    (hx : Turn.Prepares S t (x t).2)
    (hf : ∀ a t', x t = (.ok a, t') → Turn.Prepares S t t' → Turn.Prepares S t' (f a t').2) :
    Turn.Prepares S t ((x >>= f) t).2 := by
  rw [bind_apply]
  rcases hxt : x t with ⟨_ | a, t'⟩
  · rwa [hxt] at hx
  · rw [hxt] at hx
    exact hx.trans (hf a t' hxt hx)

/-- A step that looks at the turn may use what it sees. -/
theorem prepares_get_bind {f : Turn ε σ τ → Work ε σ τ α} {t : Turn ε σ τ}
    (h : Turn.Prepares S t (f t t).2) : Turn.Prepares S t ((get >>= f) t).2 := by
  rw [bind_apply, get_apply]
  exact h

/-- To give up prepares, whatever stands behind it. -/
theorem prepares_throw_bind (code : ErrorCode) (f : α → Work ε σ τ β) :
    Prepares S (MonadExcept.throw code >>= f) := by
  have hnothing : Footprint S [] (MonadExcept.throw code >>= f) := .throw_bind code f
  exact hnothing.prepares nofun

/-- To look at something that has to be there prepares. -/
theorem prepares_require (code : ErrorCode) (o : Option α) :
    Prepares S (require code o : Work ε σ τ α) := (footprint_require code o).prepares nofun

/-- To ask the engine prepares. -/
theorem prepares_ask (call : EngineCall) : Prepares S (ask S call) :=
  (footprint_ask call).prepares (by decide)

/-- To look up a key prepares. -/
theorem prepares_readKey (device : Uuid) : Prepares S (readKey S device) :=
  (footprint_readKey device).prepares (by decide)

/-- To send a frame under the key prepares, whether it is sent or not. -/
theorem prepares_sendSealed (frame : Bytes) : Prepares S (sendSealed S frame) :=
  (footprint_sendSealed frame).prepares (by decide)

/-- What is remembered of the verification may change. -/
theorem prepares_setKind {kind : Kind} {t : Turn ε σ τ} (h : kind.duty = t.kind.duty) :
    Turn.Prepares S t (setKind kind t).2 :=
  ⟨.of_eq rfl rfl, rfl, rfl, h, Nat.le_refl _⟩

end Work

end DevicePairing
