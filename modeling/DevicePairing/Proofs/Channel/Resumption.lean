import DevicePairing.Proofs.Channel.Handshake

/-!
# What an established reconnection means

When a channel for the return of a device is established, a good deal must have gone right: the engine
was asked once to resume the session, with the key that was stored, and the key it came up with is the
one the channel uses and the one stored now. `Reconnection.Rekeyed` lists all that can be relied on at
this moment, and `Reconnection.rekeyed_of_established` derives it, for every engine and every stream and
for every run over a store in memory that nobody else changes.

The engine may report any stage at any time, but it is asked to resume a session only in a call that ends
the handshake. So before the last call it was never asked, and the store is what it was.
-/

namespace DevicePairing

namespace Reconnection

variable {ε τ : Type} {suite : Suite} {engine : Engine ε} {stream : MessageStream τ}

/-- What can be relied on once a device has come back: `s₀` is the store at the beginning, `acts` are all
that was done since then, and `c` is the channel. -/
structure Rekeyed (suite : Suite) (device : Uuid) (s₀ : MemoryStore) (acts : List Act)
    (c : Channel ε MemoryStore τ) (key : SessionKey) : Prop where
  /-- The engine was asked once to resume the session, with the key that was stored. It finished with the
  new key and with a message to the peer, which was the last to be written, as it is. -/
  resumed : ∃ payload previous reply next done, s₀.key suite device = .ok (some previous) ∧
    acts.filter Act.isResume = [.asked (.resume payload previous) (.ok reply)] ∧
    reply.stage = .finished ∧ reply.key = some key ∧ reply.next = some next ∧
    (acts.filter Act.isWrite).getLast? = some (.wrote ⟨none, false, next⟩ .handshake done (.ok ()))
  /-- The new key is the key of the channel. -/
  keyed : c.key = some key
  /-- It is the key stored for the device. -/
  stored : c.store.key suite device = .ok (some key.toBytes)
  /-- The challenge secret of the device is what it was. -/
  secret : c.store.secret suite device = s₀.secret suite device
  /-- So are the secrets of the other devices. -/
  others : ∀ u, u ≠ device → c.store.answers suite u = s₀.answers suite u

/-- As long as the handshake lasts the store is what it was, and the engine was not asked to resume the
session. -/
theorem unresumed_run {c₀ : Channel ε MemoryStore τ} (sound : c₀.Sound)
    {ms : List (Channel.Move MemoryStore τ)} (alone : Channel.LeftAlone suite ms)
    (lasts : (c₀.run (.inMemory suite engine stream) ms).2.phase = .handshaking) :
    MemoryStore.Alike suite c₀.store (c₀.run (.inMemory suite engine stream) ms).2.store ∧
      ∀ a ∈ Outcome.actsOf (c₀.run (.inMemory suite engine stream) ms).1, a.isResume = false := by
  refine Channel.handshaking_run (P := fun acts d => MemoryStore.Alike suite c₀.store d.store ∧
    ∀ a ∈ acts, a.isResume = false) sound ⟨.refl _, List.forall_mem_nil _⟩ ?_ ?_ lasts
  · rintro acts d i - hsound - hlasts ⟨halike, hnone⟩
    have hlasting := Channel.lasting_serve hsound hlasts
    refine ⟨halike.trans hlasting.alike, fun a ha => ?_⟩
    rcases List.mem_append.1 ha with ha | ha
    · exact hnone a ha
    · exact hlasting.isResume a ha
  · rintro acts d d' ⟨halike, hnone⟩ hrests
    exact ⟨halike.trans (hrests.alike alone), hnone⟩

/-- The proof of the peer is accepted while the store is what it was. -/
theorem rekeyed_of_resumed (hS : suite.Opens) {device : Uuid} {s₀ : MemoryStore}
    {acts : List Act} {c : Channel ε MemoryStore τ} {payload : Bytes} {r : Except ErrorCode Unit}
    {t : Turn ε MemoryStore τ} (phase : c.phase = .handshaking)
    (alike : MemoryStore.Alike suite s₀ c.store) (unasked : ∀ a ∈ acts, a.isResume = false)
    (h : Resumed (.inMemory suite engine stream) device payload c.turn r t)
    (established : (t.settle r).phase = .established) :
    ∃ key, Rekeyed suite device s₀ (acts ++ t.acts) (t.settle r).toChannel key := by
  cases h with
  | refused h =>
    exact absurd established (Turn.phase_fail_ne_established (h.phase.trans phase) _)
  | keyRefused agreed _ | unanswered agreed _ _ =>
    refine absurd established (Turn.phase_fail_ne_established ?_ _)
    exact agreed.prepares.phase.trans phase
  | @resumed key next t' s tape done stream' agreed keyKept written =>
    obtain ⟨previous, reply, hread, hfinished, hkey, hnext, hacts⟩ := agreed.asked
    have hstore : t'.store = c.store := MemoryStore.eq_of_reads agreed.prepares.reads
    rw [hstore] at keyKept
    have hanswers := MemoryStore.answers_saveKey hS keyKept
    have hdone : acts ++ (t'.acts ++ [.keySaved device key.toBytes (.ok ()),
        .wrote ⟨none, false, next⟩ .handshake done (.ok ())]) =
      acts ++ [.keyRead device (.ok (some previous)), .asked (.resume payload previous) (.ok reply),
        .keySaved device key.toBytes (.ok ())] ++
        [.wrote ⟨none, false, next⟩ .handshake done (.ok ())] := by
      rw [hacts]
      simp
    have hprevious : s₀.key suite device = .ok (some previous) := by
      rw [← alike.key device]
      exact hread
    have hself := hanswers device
    rw [if_pos rfl] at hself
    refine ⟨key, ⟨payload, previous, reply, next, done, hprevious, ?_, hfinished, hkey, hnext, ?_⟩,
      rfl, congrArg Prod.fst hself, ?_, fun u hu => ?_⟩
    · show List.filter _ (acts ++ (t'.acts ++ _)) = _
      rw [hdone, List.filter_append, List.filter_append, List.filter_eq_nil_iff.2 (by simpa using unasked)]
      rfl
    · show (List.filter _ (acts ++ (t'.acts ++ _))).getLast? = _
      rw [hdone, List.filter_append]
      exact List.getLast?_concat
    · exact (congrArg Prod.snd hself).trans (alike.secret device)
    · refine (hanswers u).trans ?_
      rw [if_neg hu]
      exact alike.answers u

/-- When a reconnection over a store in memory that nobody else changes becomes established, the device
has come back with a new key: the engine was asked exactly once to resume the session, with the stored
key; the key that it came up with is the key of the channel and is stored in place of the old one; its
message to the peer was the last to be written; and all other secrets are what they were. -/
theorem rekeyed_of_established (hS : suite.Opens) {device : Uuid} {c₀ : Channel ε MemoryStore τ}
    (new : Channel.NewReconnection (.inMemory suite engine stream) device c₀)
    {ms : List (Channel.Move MemoryStore τ)} {m : Channel.Move MemoryStore τ}
    (alone : Channel.LeftAlone suite (ms ++ [m]))
    (before : (c₀.run (.inMemory suite engine stream) ms).2.phase ≠ .established)
    (after : (c₀.run (.inMemory suite engine stream) (ms ++ [m])).2.phase = .established) :
    ∃ key, Rekeyed suite device c₀.store
      (Outcome.actsOf (c₀.run (.inMemory suite engine stream) (ms ++ [m])).1)
      (c₀.run (.inMemory suite engine stream) (ms ++ [m])).2 key := by
  have hsound := Channel.sound_run (S := .inMemory suite engine stream) ms new.sound
  have hreturning := (Channel.returning_run (S := .inMemory suite engine stream) ms new.sound).trans
    new.returning
  obtain ⟨i, rfl, hphase, hlast, hacts⟩ :=
    Channel.exists_call_of_established new.sound before after
  obtain ⟨halike, hunasked⟩ := unresumed_run new.sound
    (fun change h => alone change (List.mem_append_left _ h)) hphase
  rw [hlast] at after ⊢
  rw [hacts]
  generalize (c₀.run (.inMemory suite engine stream) ms).2 = c at *
  have hserved := Channel.served_serve (S := .inMemory suite engine stream) i hsound
  generalize c.serve (.inMemory suite engine stream) i = t at *
  cases hserved with
  | quiet h => exact absurd (h.established after) before
  | final _ _ _ kind _ => cases hreturning.symm.trans kind
  | resume _ _ _ kind resumed =>
    cases hreturning.symm.trans kind
    rw [Turn.acts_settle]
    exact rekeyed_of_resumed hS hphase halike hunasked resumed after

/-- The peer comes back to a store in memory that knows it. -/
def resuming : Channel Bench.Script MemoryStore Bench.Outlet :=
  let c := Bench.returning .acquainted
  (Channel.reconnection Bench.inMemory Bench.peer none c.engine c.store.memory c.stream c.tape).2

/-- The peer proves that it holds the stored key, and the key is replaced. -/
theorem rekeyed_by_proof :
    (resuming.run Bench.inMemory [.frame [1], .frame [2]]).2.phase = .handshaking ∧
    (resuming.run Bench.inMemory ([.frame [1], .frame [2]] ++ [.frame [3]])).2.phase =
      .established ∧
    ∃ key, Rekeyed .standard Bench.peer resuming.store
      (Outcome.actsOf (resuming.run Bench.inMemory ([.frame [1], .frame [2]] ++ [.frame [3]])).1)
      (resuming.run Bench.inMemory ([.frame [1], .frame [2]] ++ [.frame [3]])).2 key := by
  have hbefore : (resuming.run Bench.inMemory [.frame [1], .frame [2]]).2.phase = .handshaking := by
    decide +kernel
  have hafter : (resuming.run Bench.inMemory ([.frame [1], .frame [2]] ++ [.frame [3]])).2.phase =
      .established := by
    decide +kernel
  have halone : Channel.LeftAlone .standard
      ([.frame [1], .frame [2]] ++ [.frame [3]] : List (Channel.Move MemoryStore Bench.Outlet)) := by
    intro change h
    simp [Channel.Move.frame] at h
  refine ⟨hbefore, hafter,
    rekeyed_of_established Suite.standard_opens (.made none _ _ _ _) halone ?_ hafter⟩
  intro h
  cases hbefore.symm.trans h

end Reconnection

end DevicePairing
