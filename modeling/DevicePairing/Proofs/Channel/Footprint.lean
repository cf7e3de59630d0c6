import DevicePairing.Proofs.Channel.Run
import Mathlib.Logic.Relation

/-!
# What the steps of a handshake touch

All that a handshake does is made of few kinds of things: questions to the collaborators, draws from the tape,
writes, and changes of the channel itself. `Turn.Touched` lists them, with what each does to the turn. A step of a
handshake has a footprint: the kinds of things that it may do, in whatever it ends (`Work.Footprint`). The footprint of
a sequence is the footprints of its steps one after another, so that each handler is looked at once, whatever one
wants to know of it.

What one wants to know is mostly that something stays as it is. `Turn.DependsOn` says for a part of the turn which
kinds of things can change it, one case for each kind; a step in whose footprint there are none of these leaves it
as it is (`Work.Footprint.leaves`).

Most handlers begin by asking the engine, and where they succeed they end at the stage that was replied
(`Work.AsksFirst`).
-/

namespace DevicePairing

/-- Whether an event tells of traffic: of a message, or of something that was refused. -/
def Event.isTraffic : Event → Bool
  | .message _ | .messageError _ => true
  | _ => false

variable {ε σ τ : Type} {α β γ : Type}

/-- The kinds of things that steps of a handshake do. -/
inductive Touch where
  /-- To ask the engine. -/
  | ask
  /-- To look up a key. -/
  | lookUp
  /-- To hash a challenge. -/
  | hash
  /-- To have a key or a challenge secret kept. -/
  | keep
  /-- To encrypt a code. -/
  | sealCode
  /-- To draw from the tape. -/
  | draw
  /-- To write a frame of the handshake. -/
  | write
  /-- To go on to a stage. -/
  | stage
  /-- To set the key. -/
  | key
  /-- To change what the channel remembers for its kind. -/
  | kind
  /-- To have observers told of an event of the handshake. -/
  | tell
  /-- To establish the channel. -/
  | establish
  deriving DecidableEq

/-- All of them. -/
def Touch.all : List Touch :=
  [.ask, .lookUp, .hash, .keep, .sealCode, .draw, .write, .stage, .key, .kind, .tell, .establish]

/-- The list has all of them. -/
theorem Touch.mem_all (x : Touch) : x ∈ all := by
  cases x <;> decide

/-! ## One thing that is done -/

namespace Turn

variable (S : Setting ε σ τ)

/-- One thing of a kind is done in a turn, and this is the turn afterwards. -/
inductive Touched : Touch → Turn ε σ τ → Turn ε σ τ → Prop where
  /-- The engine is asked. -/
  | ask (call : EngineCall) (t : Turn ε σ τ) : Touched .ask t (Work.ask S call t).2
  /-- A key is looked up. -/
  | lookUp (device : Uuid) (t : Turn ε σ τ) : Touched .lookUp t (Work.readKey S device t).2
  /-- A challenge is hashed. -/
  | hash (device : Uuid) (challenge : Bytes) (t : Turn ε σ τ) :
    Touched .hash t (Work.hash S device challenge t).2
  /-- The store is to keep a key. -/
  | keepKey (device : Uuid) (key : Bytes) (t : Turn ε σ τ) :
    Touched .keep t (Work.saveKey S device key t).2
  /-- The store is to keep a challenge secret. -/
  | keepSecret (device : Uuid) (secret : Bytes) (t : Turn ε σ τ) :
    Touched .keep t (Work.saveSecret S device secret t).2
  /-- A code is encrypted. -/
  | sealCode (cipher : OutOfBand.Cipher) (code : Bytes) (t : Turn ε σ τ) :
    Touched .sealCode t (Work.sealCode S cipher code t).2
  /-- Something is drawn from the tape. -/
  | draw (tape : Tape) (t : Turn ε σ τ) : Touched .draw t { t with tape }
  /-- A frame of the handshake is written. -/
  | write (m : DeviceMessage) (t : Turn ε σ τ) : Touched .write t (t.write S m .handshake).2
  /-- The handshake goes on to a stage. -/
  | stage {next : Stage} {t : Turn ε σ τ} (admitted : t.stage.admits next = true) :
    Touched .stage t { t with stage := next }
  /-- The key is set. -/
  | key (key : SessionKey) {t : Turn ε σ τ} (fresh : t.key = none) : Touched .key t { t with key := some key }
  /-- Something else is remembered for the kind. -/
  | kind (kind : Kind) (t : Turn ε σ τ) : Touched .kind t { t with kind }
  /-- Observers are to be told of an event of the handshake. -/
  | tell {e : Event} (apart : e.isTraffic = false) (t : Turn ε σ τ) : Touched .tell t (t.announce e)
  /-- The channel is established. -/
  | establish {phase : Phase} {t : Turn ε σ τ} (opened : t.phase.transition .established = .ok phase) :
    Touched .establish t ({ t with phase }.announce .established)

/-- From one moment of a turn to another nothing but things of some kinds are done. -/
def Reaches (touches : List Touch) : Turn ε σ τ → Turn ε σ τ → Prop :=
  Relation.ReflTransGen fun t t' => ∃ x ∈ touches, Touched S x t t'

variable {S} {touches touches' : List Touch} {t t' : Turn ε σ τ}

/-- What is done by things of some kinds is done by things of more kinds. -/
theorem Reaches.mono (h : Reaches S touches t t') (sub : touches ⊆ touches') : Reaches S touches' t t' := by
  induction h with
  | refl => exact .refl
  | tail _ touched ih =>
    obtain ⟨x, hx, htouched⟩ := touched
    exact ih.tail ⟨x, sub hx, htouched⟩

/-- One thing is done. -/
theorem Touched.reaches {x : Touch} (h : Touched S x t t') : Reaches S [x] t t' :=
  .single ⟨x, List.mem_singleton_self x, h⟩

variable (S) in
/-- A part of the turn changes with nothing but things of some kinds. -/
def DependsOn (on : List Touch) (part : Turn ε σ τ → γ) : Prop :=
  ∀ x t t', Touched S x t t' → x ∉ on → part t' = part t

/-- A part stays as it is while nothing is done on which it depends. -/
theorem DependsOn.eq_of_reaches {on : List Touch} {part : Turn ε σ τ → γ} (depends : DependsOn S on part)
    (apart : ∀ x ∈ touches, x ∉ on) (h : Reaches S touches t t') : part t' = part t := by
  induction h with
  | refl => rfl
  | tail _ touched ih =>
    obtain ⟨x, hx, htouched⟩ := touched
    exact (depends x _ _ htouched (apart x hx)).trans ih

/-- The stage changes only where the handshake goes on to one. -/
theorem dependsOn_stage : DependsOn S [.stage] (fun t => t.stage) := by
  rintro x t t' h apart
  cases h <;> first | rfl | exact absurd List.mem_cons_self apart

end Turn

/-! ## Footprints -/

namespace Work

variable (S : Setting ε σ τ)

/-- Whatever comes of a step, it does nothing but things of some kinds. -/
def Footprint (touches : List Touch) (w : Work ε σ τ α) : Prop := ∀ t, Turn.Reaches S touches t (w t).2

/-- A step leaves a part of the turn as it is, whether it succeeds or not. -/
def Leaves (part : Turn ε σ τ → γ) (w : Work ε σ τ α) : Prop := ∀ t, part (w t).2 = part t

variable {S} {touches touches' : List Touch} {part : Turn ε σ τ → γ}

/-- A step leaves as it is what depends on nothing in its footprint. -/
theorem Footprint.leaves {w : Work ε σ τ α} {on : List Touch} (h : Footprint S touches w)
    (depends : Turn.DependsOn S on part) (apart : ∀ x ∈ touches, x ∉ on) : Leaves part w :=
  fun t => depends.eq_of_reaches apart (h t)

/-- A footprint may be given with more in it. -/
theorem Footprint.mono {w : Work ε σ τ α} (h : Footprint S touches w) (sub : touches ⊆ touches') :
    Footprint S touches' w := fun t => (h t).mono sub

/-- The footprints of two steps, one after the other. -/
theorem Footprint.bind {x : Work ε σ τ α} {f : α → Work ε σ τ β} (hx : Footprint S touches x)
    (hf : ∀ a, Footprint S touches' (f a)) : Footprint S (touches ++ touches') (x >>= f) := by
  intro t
  have hfirst := (hx t).mono (List.subset_append_left touches touches')
  rw [bind_apply]
  rcases h : x t with ⟨_ | a, t'⟩
  · rwa [h] at hfirst
  · rw [h] at hfirst
    exact hfirst.trans ((hf a t').mono (List.subset_append_right touches touches'))

/-- A step that looks at the turn may use what it sees. -/
theorem Footprint.get_bind {f : Turn ε σ τ → Work ε σ τ α} (h : ∀ t, Footprint S touches (f t)) :
    Footprint S touches (get >>= f) := by
  intro t
  rw [bind_apply, get_apply]
  exact h t t

/-- To do nothing leaves no footprint. -/
theorem Footprint.pure (a : α) : Footprint S touches (pure a : Work ε σ τ α) := fun _ => .refl

/-- To give up leaves no footprint. -/
theorem Footprint.throw (code : ErrorCode) : Footprint S touches (throw code : Work ε σ τ α) := fun _ => .refl

/-- What stands behind giving up leaves no footprint. -/
theorem Footprint.throw_bind (code : ErrorCode) (f : α → Work ε σ τ β) :
    Footprint S touches (MonadExcept.throw code >>= f) := by
  intro t
  rw [bind_apply, throw_apply]
  exact .refl

/-- To look at something that has to be there leaves no footprint. -/
theorem footprint_require (code : ErrorCode) (o : Option α) :
    Footprint S [] (require code o : Work ε σ τ α) := by
  cases o with
  | none => exact .throw code
  | some a => exact .pure a

/-! ### Single steps -/

/-- The engine is asked. -/
theorem footprint_ask (call : EngineCall) : Footprint S [.ask] (ask S call) :=
  fun t => (Turn.Touched.ask call t).reaches

/-- A key is looked up. -/
theorem footprint_readKey (device : Uuid) : Footprint S [.lookUp] (readKey S device) :=
  fun t => (Turn.Touched.lookUp device t).reaches

/-- A challenge is hashed. -/
theorem footprint_hash (device : Uuid) (challenge : Bytes) : Footprint S [.hash] (hash S device challenge) :=
  fun t => (Turn.Touched.hash device challenge t).reaches

/-- A key is to be kept. -/
theorem footprint_saveKey (device : Uuid) (key : Bytes) : Footprint S [.keep] (saveKey S device key) :=
  fun t => (Turn.Touched.keepKey device key t).reaches

/-- A challenge secret is to be kept. -/
theorem footprint_saveSecret (device : Uuid) (secret : Bytes) :
    Footprint S [.keep] (saveSecret S device secret) :=
  fun t => (Turn.Touched.keepSecret device secret t).reaches

/-- A code is encrypted. -/
theorem footprint_sealCode (cipher : OutOfBand.Cipher) (code : Bytes) :
    Footprint S [.sealCode] (sealCode S cipher code) :=
  fun t => (Turn.Touched.sealCode cipher code t).reaches

/-- A frame of the handshake is written, as it is. -/
theorem footprint_sendPlain (frame : Bytes) : Footprint S [.write] (sendPlain S frame) := by
  intro t
  have hwrite := (Turn.Touched.write (S := S) ⟨none, false, frame⟩ t).reaches
  unfold sendPlain
  rcases hw : t.write S ⟨none, false, frame⟩ .handshake with ⟨_ | _, t'⟩ <;> rwa [hw] at hwrite

/-- A nonce is drawn, and the frame that was sealed with it is written. -/
theorem footprint_sendSealed (frame : Bytes) : Footprint S [.draw, .write] (sendSealed S frame) := by
  intro t
  unfold sendSealed
  split
  · exact .refl
  next key _ =>
    have hdraw (tape : Tape) : Turn.Reaches S [.draw, .write] t { t with tape } :=
      (Turn.Touched.draw tape t).reaches.mono (by simp)
    split
    · exact hdraw _
    next sealed tape _ =>
      have hwrite : Turn.Reaches S [.draw, .write] { t with tape }
          (({ t with tape } : Turn ε σ τ).write S ⟨none, true, sealed⟩ .handshake).2 :=
        (Turn.Touched.write (S := S) ⟨none, true, sealed⟩ { t with tape }).reaches.mono (by simp)
      have hboth := (hdraw tape).trans hwrite
      rcases hw : ({ t with tape } : Turn ε σ τ).write S ⟨none, true, sealed⟩ .handshake with
        ⟨_ | _, t'⟩ <;> rwa [hw] at hboth

/-- The handshake goes on to a stage, unless that would be a step back. -/
theorem footprint_advance (next : Stage) : Footprint S [.stage] (advance next : Work ε σ τ Unit) := by
  intro t
  unfold advance
  split
  · next admitted => exact (Turn.Touched.stage admitted).reaches
  · exact .refl

/-- The key is set, unless there is one. -/
theorem footprint_setKey (key : SessionKey) : Footprint S [.key] (setKey key : Work ε σ τ Unit) := by
  intro t
  unfold setKey
  split
  · next fresh => exact (Turn.Touched.key key fresh).reaches
  · exact .refl

/-- Something else is remembered for the kind. -/
theorem footprint_setKind (kind : Kind) : Footprint S [.kind] (setKind kind : Work ε σ τ Unit) :=
  fun t => (Turn.Touched.kind kind t).reaches

/-- Observers are to be told of an event of the handshake. -/
theorem footprint_announce {e : Event} (apart : e.isTraffic = false) :
    Footprint S [.tell] (announce e : Work ε σ τ Unit) :=
  fun t => (Turn.Touched.tell apart t).reaches

/-- The channel is established, where it may be. -/
theorem footprint_establish : Footprint S [.establish] (establish : Work ε σ τ Unit) := by
  intro t
  unfold establish
  split
  · next phase opened => exact (Turn.Touched.establish opened).reaches
  · exact .refl

/-! ## Steps that ask first -/

variable (S) in
/-- A step that goes on to a stage, does things of some other kinds and, if it succeeds, ends at that stage. -/
def Ends (s : Stage) (touches : List Touch) (w : Work ε σ τ Unit) : Prop :=
  Footprint S (.stage :: touches) w ∧ ∀ t, (w t).1 = .ok () → (w t).2.stage = s

variable (S) in
/-- The first thing a step does is to ask the engine. What it does after that is of some kinds, and if it succeeds it
ends at the stage that was replied. -/
def AsksFirst (call : EngineCall) (touches : List Touch) (w : Work ε σ τ Unit) : Prop :=
  ∃ rest : Reply → Work ε σ τ Unit, w = ask S call >>= rest ∧ ∀ reply, Ends S reply.stage touches (rest reply)

variable {s : Stage} {call : EngineCall} {w : Work ε σ τ Unit}

/-- The footprint may be given with more in it. -/
theorem Ends.mono (h : Ends S s touches w) (sub : touches ⊆ touches') : Ends S s touches' w :=
  ⟨h.1.mono (List.cons_subset_cons _ sub), h.2⟩

/-- What comes before does not matter for where a step ends. -/
theorem Footprint.bind_ends {x : Work ε σ τ α} {f : α → Work ε σ τ Unit} (hx : Footprint S touches x)
    (hf : ∀ a, Ends S s touches' (f a)) : Ends S s (touches ++ touches') (x >>= f) := by
  constructor
  · refine (hx.bind fun a => (hf a).1).mono fun y hy => ?_
    simp only [List.mem_append, List.mem_cons] at hy ⊢
    exact or_left_comm.1 hy
  · intro t
    rw [bind_apply]
    rcases x t with ⟨_ | a, t'⟩
    · exact nofun
    · exact (hf a).2 t'

/-- A step that looks at the turn may use what it sees. -/
theorem Ends.get_bind {f : Turn ε σ τ → Work ε σ τ Unit} (h : ∀ t, Ends S s touches (f t)) :
    Ends S s touches (get >>= f) := by
  refine ⟨.get_bind fun t => (h t).1, fun t => ?_⟩
  rw [bind_apply, get_apply]
  exact (h t).2 t

/-- A step that gives up ends nowhere. -/
theorem Ends.throw_bind (code : ErrorCode) (f : α → Work ε σ τ Unit) :
    Ends S s touches (MonadExcept.throw code >>= f) := by
  refine ⟨.throw_bind code f, fun t => ?_⟩
  rw [bind_apply, throw_apply]
  exact nofun

/-- To go on to a stage, and not to change it any more, is to end there. -/
theorem ends_advance {f : Unit → Work ε σ τ Unit} (hf : Footprint S touches (f ()))
    (stays : ∀ x ∈ touches, x ∉ [Touch.stage]) : Ends S s touches (advance s >>= f) := by
  refine ⟨(footprint_advance s).bind fun _ => hf, fun t => ?_⟩
  rw [bind_apply]
  unfold advance
  by_cases hadmits : t.stage.admits s = true
  · rw [if_pos hadmits]
    exact fun _ => hf.leaves Turn.dependsOn_stage stays { t with stage := s }
  · rw [if_neg hadmits]
    exact nofun

/-- The footprint of a step that asks first. -/
theorem AsksFirst.footprint (h : AsksFirst S call touches w) :
    Footprint S (.ask :: .stage :: touches) w := by
  obtain ⟨rest, rfl, hrest⟩ := h
  exact (footprint_ask call).bind fun reply => (hrest reply).1

end Work

/-! ## Association -/

namespace Association

variable {S : Setting ε σ τ}

/-- The first frame is for the engine, and its answer is sent. -/
theorem asksFirst_init (payload : Bytes) : Work.AsksFirst S (.init payload) [.write] (init S payload) := by
  refine ⟨_, rfl, fun reply => Work.ends_advance ?_ (by decide)⟩
  exact (Work.footprint_require _ _).bind fun next => Work.footprint_sendPlain next

/-- To have the code shown is to tell a listener. -/
theorem ends_showCode (reply : Reply) :
    Work.Ends S reply.stage [.tell] (showCode reply : Work ε σ τ Unit) := by
  unfold showCode
  dsimp only
  split
  · exact .throw_bind _ _
  refine (Work.footprint_require _ _).bind_ends fun code => .get_bind fun t => ?_
  refine (Work.footprint_require _ _).bind_ends fun listener => ?_
  exact Work.ends_advance (Work.footprint_announce rfl) (by decide)

/-- To send the code is to encrypt it, to remember it and to write it. -/
theorem ends_sendCode (cipher : OutOfBand.Cipher) (pendingKey : Option SessionKey)
    (device : Option Uuid) (reply : Reply) :
    Work.Ends S reply.stage [.sealCode, .kind, .write] (sendCode S cipher pendingKey device reply) := by
  unfold sendCode
  dsimp only
  split
  · exact .throw_bind _ _
  refine (Work.footprint_require _ _).bind_ends fun code => ?_
  refine (Work.footprint_sealCode _ _).bind_ends fun encrypted => ?_
  refine (Work.footprint_setKind _).bind_ends fun _ => ?_
  exact Work.ends_advance (Work.footprint_sendPlain encrypted) (by decide)

/-- The second frame is for the engine, and its code is shown or sent. -/
theorem asksFirst_proceed (payload : Bytes) :
    Work.AsksFirst S (.proceed payload) [.sealCode, .kind, .write, .tell] (proceed S payload) := by
  refine ⟨_, rfl, fun reply => .get_bind fun t => ?_⟩
  split
  · exact (ends_sendCode _ _ _ reply).mono (by simp)
  · exact (ends_showCode reply).mono (by simp)

/-- To accept the code is to ask for the key, to set it, to remember it for the last frame and to send our
identifier under it. -/
theorem asksFirst_accept : Work.AsksFirst S .verify [.key, .kind, .draw, .write] (accept S) := by
  refine ⟨_, rfl, fun reply => ?_⟩
  dsimp only
  split
  · exact .throw_bind _ _
  next hfinished =>
    rw [Decidable.of_not_not hfinished]
    refine (Work.footprint_require _ _).bind_ends fun key => Work.ends_advance ?_ (by decide)
    refine (Work.footprint_setKey key).bind fun _ => .get_bind fun t => ?_
    split
    · exact (Work.footprint_setKind _).bind fun _ => .get_bind fun _ => Work.footprint_sendSealed _
    · refine .get_bind fun _ => (Work.footprint_sendSealed _).mono (by simp)

/-- The peer's code is refused, or it has ours accepted. -/
theorem footprint_peerCode (payload : Bytes) :
    Work.Footprint S [.ask, .stage, .key, .kind, .draw, .write] (peerCode S payload) := by
  refine .get_bind fun t => ?_
  split
  · split
    · exact .throw _
    · split
      · exact asksFirst_accept.footprint
      · exact .throw _
  · exact .throw _

/-- With the last frame the key and the secret are kept, and the channel is established. -/
theorem footprint_final (payload : Bytes) :
    Work.Footprint S [.kind, .keep, .keep, .kind, .tell, .establish] (final S payload) := by
  refine (Work.footprint_require _ _).bind fun device => .get_bind fun t => ?_
  split
  · refine (Work.footprint_setKind _).bind fun _ => ?_
    refine (Work.footprint_saveKey _ _).bind fun _ => ?_
    refine (Work.footprint_saveSecret _ _).bind fun _ => ?_
    refine (Work.footprint_setKind _).bind fun _ => ?_
    exact (Work.footprint_announce rfl).bind fun _ => Work.footprint_establish
  · exact .throw _

end Association

/-! ## Reconnection -/

namespace Reconnection

variable {S : Setting ε σ τ}

/-- The challenge of the peer is hashed, and the hash is sent. -/
theorem footprint_verify (device : Uuid) (expected : Option Bytes) (payload : Bytes) :
    Work.Footprint S [.hash, .write, .kind] (verify S device expected payload) := by
  unfold verify
  refine (Work.footprint_require _ _).bind fun expected => ?_
  dsimp only
  split
  · exact .throw_bind _ _
  refine (Work.footprint_hash _ _).bind fun proof => ?_
  exact (Work.footprint_sendPlain _).bind fun _ => Work.footprint_setKind _

/-- The second frame is for the engine, and its answer is sent if there is one. -/
theorem asksFirst_proceed (payload : Bytes) :
    Work.AsksFirst S (.proceed payload) [.write] (proceed S payload) := by
  refine ⟨_, rfl, fun reply => Work.ends_advance ?_ (by decide)⟩
  split
  · next next _ => exact Work.footprint_sendPlain next
  · exact .pure ()

/-- The stored key is looked up before the engine is asked to resume. The new key is kept before it is set. -/
theorem exists_asksFirst_resume (device : Uuid) (payload : Bytes) :
    ∃ w : Bytes → Work ε σ τ Unit,
      resume S device payload = (do
        let previous ← Work.require .invalidEncryptionKey (← Work.readKey S device)
        w previous) ∧
      ∀ previous,
        Work.AsksFirst S (.resume payload previous) [.keep, .key, .write, .establish] (w previous) := by
  refine ⟨_, rfl, fun previous => ⟨_, rfl, fun reply => ?_⟩⟩
  dsimp only
  split
  · exact .throw_bind _ _
  next hfinished =>
    rw [Decidable.of_not_not hfinished]
    refine (Work.footprint_require _ _).bind_ends fun key => ?_
    refine (Work.footprint_require _ _).bind_ends fun next => ?_
    refine (Work.footprint_saveKey _ _).bind_ends fun _ => Work.ends_advance ?_ (by decide)
    refine (Work.footprint_setKey key).bind fun _ => ?_
    exact (Work.footprint_sendPlain next).bind fun _ => Work.footprint_establish

/-- The footprint of the proof that the peer holds the stored key. -/
theorem footprint_resume (device : Uuid) (payload : Bytes) :
    Work.Footprint S [.lookUp, .ask, .stage, .keep, .key, .write, .establish] (resume S device payload) := by
  obtain ⟨w, hresume, hasks⟩ := exists_asksFirst_resume (S := S) device payload
  rw [hresume]
  refine (Work.footprint_readKey device).bind fun found => ?_
  exact (Work.footprint_require _ found).bind fun previous => (hasks previous).footprint

end Reconnection

end DevicePairing
