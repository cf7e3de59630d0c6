import DevicePairing.Proofs.Channel.Authenticity
import DevicePairing.Proofs.Channel.Handshake

/-!
# What an established association means

When the channel of a first association is established, the peer has introduced itself: its last frame
names a device and brings a challenge secret, and both the secret and the key of the channel are stored
for that device. The key is the one that the engine agreed on, when it was asked for it for the only time,
and the one under which our own identifier was sent before. `Association.Introduced` lists all of this,
and `Association.introduced_of_established` derives it, for both flows, for every engine and every stream,
and for every run over a store in memory that nobody else changes.

The key passes through three calls on its way: the engine agrees on it, it waits for the last frame, and
it is stored. `Association.Awaiting` is the invariant that follows it. That the key that waits is the key
of the channel is part of the soundness of channels.
-/

namespace DevicePairing.Association

variable {ε σ τ : Type}

/-- How far a new association has come while its handshake goes on: `acts` are all that was done, and
`self` is our own identifier. -/
inductive Awaiting (suite : Suite) (self : Uuid) (acts : List Act) (c : Channel ε σ τ) : Prop where
  /-- The engine was not asked for a key, and there is none. -/
  | unkeyed (fresh : c.key = none) (unasked : ∀ a ∈ acts, a.isVerify = false)
  /-- The engine was asked once for a key and agreed on one, which was set, and our identifier was sent
  under it. -/
  | keyed {key : SessionKey} {reply : Reply} {nonce : Block nonceSize} {sealed : Bytes}
    {done : List StreamAct} (held : c.key = some key)
    (asked : acts.filter Act.isVerify = [.asked .verify (.ok reply)])
    (finished : reply.stage = .finished) (given : reply.key = some key)
    (sealing : key.sealWith suite nonce self.toBytes = .ok sealed)
    (sent : .wrote ⟨none, true, sealed⟩ .handshake done (.ok ()) ∈ acts)

/-- What can be relied on once an association is established by a frame that says `payload`: `s₀` is the
store at the beginning, `earlier` are the acts before that frame came in, `acts` are all acts, and `c` is
the channel. -/
structure Introduced (suite : Suite) (payload : Bytes) (s₀ : MemoryStore) (earlier acts : List Act)
    (c : Channel ε MemoryStore τ) (device : Uuid) (secret : Bytes) (key : SessionKey) : Prop where
  /-- The frame consists of the identifier of the device and a secret. -/
  named : payload = device.toBytes ++ secret
  /-- The identifier is a proper one. -/
  proper : device ≠ Uuid.nil
  /-- The secret is as long as it should be. -/
  length : secret.length = challengeSecretSize
  /-- The channel knows the device. -/
  known : c.device = some device
  /-- The key is the key of the channel. -/
  keyed : c.key = some key
  /-- The engine was asked once for a key, and this is the one that it agreed on. -/
  agreed : ∃ reply, acts.filter Act.isVerify = [.asked .verify (.ok reply)] ∧
    reply.stage = .finished ∧ reply.key = some key
  /-- Our own identifier was sent under the key before. -/
  sent : ∃ nonce sealed done, key.sealWith suite nonce s₀.uniqueId.toBytes = .ok sealed ∧
    .wrote ⟨none, true, sealed⟩ .handshake done (.ok ()) ∈ earlier
  /-- The key and the secret are stored for the device. -/
  stored : c.store.answers suite device = (.ok (some key.toBytes), .ok (some secret))
  /-- The secrets of all other devices are what they were. -/
  others : ∀ u, u ≠ device → c.store.answers suite u = s₀.answers suite u

variable {suite : Suite} {engine : Engine ε} {stream : MessageStream τ}

/-- Every call after which the handshake goes on takes the association a step further, or leaves it where
it is. -/
theorem Awaiting.serve {self : Uuid} {acts : List Act} {c : Channel ε MemoryStore τ} {i : Call}
    {t : Turn ε MemoryStore τ} (h : Awaiting suite self acts c) (owner : c.store.uniqueId = self)
    (lasting : Channel.Lasting (.inMemory suite engine stream) c i t) :
    Awaiting suite self (acts ++ t.acts) t.toChannel := by
  cases lasting with
  | prepares prepares unasked =>
    have hnone : t.acts.filter Act.isVerify = [] := by
      simpa using fun a ha => (unasked a ha).1
    cases h with
    | unkeyed fresh unasked' =>
      refine .unkeyed (prepares.key.trans fresh) fun a ha => ?_
      rcases List.mem_append.1 ha with ha | ha
      · exact unasked' a ha
      · exact (unasked a ha).1
    | keyed held asked finished given sealing sent =>
      refine .keyed (prepares.key.trans held) ?_ finished given sealing (List.mem_append_left _ sent)
      rw [List.filter_append, asked, hnone, List.append_nil]
  | agrees _ agreed =>
    obtain ⟨reply, nonce, sealed, done, finished, given, sealing, hacts⟩ := agreed.asked
    cases h with
    | unkeyed _ unasked =>
      rw [show c.turn.acts = [] from rfl, List.nil_append] at hacts
      rw [show (Setting.inMemory suite engine stream).store.uniqueId c.turn.store = self from owner]
        at sealing
      have hsent : .wrote ⟨none, true, sealed⟩ .handshake done (.ok ()) ∈ t.acts := by
        rw [hacts]
        simp
      have hnone : acts.filter Act.isVerify = [] := by simpa using unasked
      refine .keyed agreed.keyed ?_ finished given sealing (List.mem_append_right _ hsent)
      rw [List.filter_append, hnone, hacts]
      rfl
    | keyed held _ _ _ _ _ => cases held.symm.trans agreed.fresh

/-- As long as the handshake of a new association lasts the store is what it was, and a key is accounted
for. -/
theorem awaiting_run {c₀ : Channel ε MemoryStore τ} (new : c₀.NewAssociation)
    {ms : List (Channel.Move MemoryStore τ)} (alone : Channel.LeftAlone suite ms)
    (lasts : (c₀.run (.inMemory suite engine stream) ms).2.phase = .handshaking) :
    MemoryStore.Alike suite c₀.store (c₀.run (.inMemory suite engine stream) ms).2.store ∧
      Awaiting suite c₀.store.uniqueId
        (Outcome.actsOf (c₀.run (.inMemory suite engine stream) ms).1)
        (c₀.run (.inMemory suite engine stream) ms).2 := by
  have hstart : Awaiting suite c₀.store.uniqueId [] c₀ := by
    obtain ⟨verification, engine, store, stream, tape, rfl⟩ := new.eq_ofKind
    exact .unkeyed rfl fun _ h => nomatch h
  refine Channel.handshaking_run (P := fun acts d => MemoryStore.Alike suite c₀.store d.store ∧
    Awaiting suite c₀.store.uniqueId acts d) new.sound ⟨.refl _, hstart⟩ ?_ ?_ lasts
  · rintro acts d i - hsound - hlasts ⟨halike, hawaiting⟩
    have hlasting := Channel.lasting_serve hsound hlasts
    exact ⟨halike.trans hlasting.alike, hawaiting.serve halike.uniqueId hlasting⟩
  · rintro acts d d' ⟨halike, hawaiting⟩ hrests
    refine ⟨halike.trans (hrests.alike alone), ?_⟩
    cases hawaiting with
    | unkeyed fresh unasked => exact .unkeyed (hrests.key.trans fresh) unasked
    | keyed held asked finished given sealing sent =>
      exact .keyed (hrests.key.trans held) asked finished given sealing sent

/-- A last frame that is stored while a key is accounted for introduces its device. -/
theorem introduced_of_stored (hS : suite.Opens) {payload : Bytes} {s₀ : MemoryStore}
    {acts : List Act} {c : Channel ε MemoryStore τ} {r : Except ErrorCode Unit}
    {t : Turn ε MemoryStore τ} (sound : c.Sound) (phase : c.phase = .handshaking)
    (alike : MemoryStore.Alike suite s₀ c.store) (awaiting : Awaiting suite s₀.uniqueId acts c)
    (h : Stored (.inMemory suite engine stream) payload c.turn r t)
    (established : (t.settle r).phase = .established) :
    ∃ device secret key,
      Introduced suite payload s₀ acts (acts ++ t.acts) (t.settle r).toChannel device secret key := by
  cases h with
  | unnamed _ | keyless _ _ | keyRefused _ _ _ | secretRefused _ _ _ _ =>
    exact absurd established (Turn.phase_fail_ne_established phase _)
  | @stored _ key _ device s s' tape tape' kind named keyKept secretKept =>
    have hkey : c.key = some key := by
      rw [← sound.pending phase, show c.kind = _ from kind]
      rfl
    cases awaiting with
    | unkeyed fresh _ => cases hkey.symm.trans fresh
    | @keyed key' reply nonce sealed done held asked finished given sealing sent =>
      cases hkey.symm.trans held
      have hsaved := MemoryStore.answers_saveKey hS keyKept
      have hkept := MemoryStore.answers_saveSecret hS secretKept
      have hproper : device ≠ Uuid.nil := by
        simpa using (Option.filter_eq_some_iff.1 named).2
      refine ⟨device, payload.drop deviceIdSize, key, eq_append_of_deviceId? named, hproper,
        MemoryStore.length_of_saveSecret secretKept, rfl, hkey, ⟨reply, ?_, finished, given⟩,
        ⟨nonce, sealed, done, sealing, sent⟩, ?_, fun u hu => ?_⟩
      · rw [List.filter_append, asked]
        rfl
      · refine (hkept device).trans ?_
        have hself := congrArg Prod.fst (hsaved device)
        rw [if_pos rfl] at hself ⊢
        exact congrArg (·, _) hself
      · refine (hkept u).trans ?_
        rw [if_neg hu, hsaved u, if_neg hu]
        exact alike.answers u

/-- When an association over a store in memory that nobody else changes becomes established, it is by a
frame of the handshake in which the peer has introduced itself. -/
theorem introduced_of_established (hS : suite.Opens) {c₀ : Channel ε MemoryStore τ}
    (new : c₀.NewAssociation) {ms : List (Channel.Move MemoryStore τ)}
    {m : Channel.Move MemoryStore τ} (alone : Channel.LeftAlone suite (ms ++ [m]))
    (before : (c₀.run (.inMemory suite engine stream) ms).2.phase ≠ .established)
    (after : (c₀.run (.inMemory suite engine stream) (ms ++ [m])).2.phase = .established) :
    ∃ message payload device secret key, m = .call (.arrived message .handshake) ∧
      (c₀.run (.inMemory suite engine stream) ms).2.Opens (.inMemory suite engine stream) message
        payload ∧
      Introduced suite payload c₀.store
        (Outcome.actsOf (c₀.run (.inMemory suite engine stream) ms).1)
        (Outcome.actsOf (c₀.run (.inMemory suite engine stream) (ms ++ [m])).1)
        (c₀.run (.inMemory suite engine stream) (ms ++ [m])).2 device secret key := by
  have hsound := Channel.sound_run (S := .inMemory suite engine stream) ms new.sound
  have hreturning := (Channel.returning_run (S := .inMemory suite engine stream) ms new.sound).trans
    new.returning
  obtain ⟨i, rfl, hphase, hlast, hacts⟩ :=
    Channel.exists_call_of_established new.sound before after
  obtain ⟨halike, hawaiting⟩ := awaiting_run new
    (fun change h => alone change (List.mem_append_left _ h)) hphase
  rw [hlast] at after ⊢
  rw [hacts]
  generalize (c₀.run (.inMemory suite engine stream) ms).2 = c at *
  have hserved := Channel.served_serve (S := .inMemory suite engine stream) i hsound
  generalize c.serve (.inMemory suite engine stream) i = t at *
  cases hserved with
  | quiet h => exact absurd (h.established after) before
  | @final message payload r t opens _ _ _ stored =>
    rw [Turn.acts_settle]
    obtain ⟨device, secret, key, h⟩ :=
      introduced_of_stored hS hsound hphase halike hawaiting stored after
    exact ⟨message, payload, device, secret, key, rfl, opens, h⟩
  | resume _ _ _ kind _ => cases hreturning.symm.trans kind

/-- An association over an empty store in memory. -/
def introducing : Channel Bench.Script MemoryStore Bench.Outlet :=
  let c := Bench.associating .empty
  (Channel.visual c.engine c.store.memory c.stream c.tape).2

/-- What happens to it up to the acceptance of the code. -/
def beforeIntroduction : List (Channel.Move MemoryStore Bench.Outlet) :=
  [.listen (some 0), .frame [1], .frame [2], .call .accept]

/-- The last frame, sealed under the key. -/
def introduction : Channel.Move MemoryStore Bench.Outlet :=
  .call (.arrived (Channel.sealedFrame Channel.lastFrame) .handshake)

/-- The peer introduces itself in a frame that is sealed under the key. -/
theorem introduced_by_sealed_frame :
    (introducing.run Bench.inMemory beforeIntroduction).2.phase = .handshaking ∧
    (introducing.run Bench.inMemory (beforeIntroduction ++ [introduction])).2.phase =
      .established ∧
    ∃ message payload device secret key,
      introduction = .call (.arrived message .handshake) ∧
      (introducing.run Bench.inMemory beforeIntroduction).2.Opens Bench.inMemory message payload ∧
      Introduced .standard payload introducing.store
        (Outcome.actsOf (introducing.run Bench.inMemory beforeIntroduction).1)
        (Outcome.actsOf (introducing.run Bench.inMemory (beforeIntroduction ++ [introduction])).1)
        (introducing.run Bench.inMemory (beforeIntroduction ++ [introduction])).2
        device secret key := by
  have hbefore : (introducing.run Bench.inMemory beforeIntroduction).2.phase = .handshaking := by
    decide +kernel
  have hafter : (introducing.run Bench.inMemory (beforeIntroduction ++ [introduction])).2.phase =
      .established := by
    decide +kernel
  have halone : Channel.LeftAlone .standard (beforeIntroduction ++ [introduction]) := by
    intro change h
    simp [beforeIntroduction, introduction, Channel.Move.frame] at h
  refine ⟨hbefore, hafter,
    introduced_of_established Suite.standard_opens (.visual ..) halone ?_ hafter⟩
  intro h
  cases hbefore.symm.trans h

end DevicePairing.Association
