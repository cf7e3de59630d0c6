import DevicePairing.Proofs.Store.Refinement

/-!
# The length of challenge secrets

A challenge secret has thirty-two bytes, and a store refuses to keep any other. That is checked when a secret
is saved and nowhere else: a snapshot is restored if its values open, whatever their length, so a value of
another length that was sealed under the wrapping key, a key for instance, may come back in the place of a
challenge secret (`MemoryStore.misplaced_secret_length`).

`MemoryStore.secret_length_iff` says when all challenge secrets of a store have the right length: exactly if those
of the snapshot have it that were neither replaced nor forgotten since. For a store that was made empty there
are none. The step behind it is that a change either supersedes the secret of a device, and then leaves one of
the right length or none, or leaves it alone (`MemoryStore.secret_change`).
-/

namespace DevicePairing.MemoryStore

variable {S : Suite} {s : MemoryStore} {m : SecretMap}

/-- A change that was answered supersedes the challenge secret of a device: another one was kept, or the device
was forgotten. -/
inductive Change.Supersedes (u : Uuid) : Change → Except StorageError Unit → Prop where
  /-- Another secret was kept. -/
  | replaced (secret : Bytes) : Supersedes u (.saveSecret u secret) (.ok ())
  /-- The device was forgotten. -/
  | forgotten (answer : Except StorageError Unit) : Supersedes u (.forget u) answer

/-- A challenge secret that is answered has the right length. -/
def Sized (answer : Except StorageError (Option Bytes)) : Prop :=
  ∀ secret, answer = .ok (some secret) → secret.length = challengeSecretSize

/-- A change supersedes the challenge secret of a device, and leaves one of the right length or none, or it
leaves the secret as it was. -/
theorem secret_change (opens : S.Opens) (c : Change) (s : MemoryStore) (t : Tape) (u : Uuid) :
    c.Supersedes u (s.change S c t).1 ∧ Sized ((s.change S c t).2.1.secret S u) ∨
      ¬ c.Supersedes u (s.change S c t).1 ∧ (s.change S c t).2.1.secret S u = s.secret S u := by
  cases c with
  | saveKey device value =>
    refine .inr ⟨nofun, ?_⟩
    rw [change_saveKey]
    rcases hsave : s.saveKey S device value t with ⟨e | ⟨⟩, s', t'⟩
    · rw [saveKey_refused hsave]
    have hsecret := congrArg Prod.snd (answers_saveKey opens hsave u)
    split at hsecret
    next hu => exact hu ▸ hsecret
    next => exact hsecret
  | saveSecret device value =>
    rw [change_saveSecret]
    rcases hsave : s.saveSecret S device value t with ⟨e | ⟨⟩, s', t'⟩
    · exact .inr ⟨nofun, by rw [saveSecret_refused hsave]⟩
    have hsecret := congrArg Prod.snd (answers_saveSecret opens hsave u)
    split at hsecret
    next hu =>
      subst hu
      refine .inl ⟨.replaced value, fun secret hanswer => ?_⟩
      cases hanswer.symm.trans hsecret
      exact length_of_saveSecret hsave
    next hu =>
      refine .inr ⟨fun supersedes => ?_, hsecret⟩
      cases supersedes
      exact hu rfl
  | forget device =>
    have hsecret := congrArg Prod.snd (answers_forget (S := S) s device u)
    split at hsecret
    next hu =>
      subst hu
      refine .inl ⟨.forgotten _, fun secret hanswer => ?_⟩
      cases hanswer.symm.trans hsecret
    next hu =>
      refine .inr ⟨fun supersedes => ?_, hsecret⟩
      cases supersedes
      exact hu rfl

/-- Changes supersede the challenge secret of a device, and leave one of the right length or none, or they leave
the secret as it was. -/
theorem secret_changes (opens : S.Opens) (cs : List Change) (s : MemoryStore) (t : Tape) (u : Uuid) :
    (∃ p ∈ cs.zip (s.changes S cs t).1, p.1.Supersedes u p.2) ∧
        Sized ((s.changes S cs t).2.1.secret S u) ∨
      (∀ p ∈ cs.zip (s.changes S cs t).1, ¬ p.1.Supersedes u p.2) ∧
        (s.changes S cs t).2.1.secret S u = s.secret S u := by
  induction cs generalizing s t with
  | nil => exact .inr ⟨List.forall_mem_nil _, rfl⟩
  | cons c cs ih =>
    unfold changes
    dsimp only
    rw [List.zip_cons_cons]
    rcases ih (s.change S c t).2.1 (s.change S c t).2.2 with ⟨hlater, hsized⟩ | ⟨hlater, hsame⟩
    · obtain ⟨p, hp, hsupersedes⟩ := hlater
      exact .inl ⟨⟨p, List.mem_cons_of_mem _ hp, hsupersedes⟩, hsized⟩
    rw [hsame]
    rcases secret_change opens c s t u with ⟨hnow, hsized⟩ | ⟨hnow, hkept⟩
    · exact .inl ⟨⟨_, List.mem_cons_self, hnow⟩, hsized⟩
    · exact .inr ⟨List.forall_mem_cons.2 ⟨hnow, hlater⟩, hkept⟩

/-- After any changes to a store that was made or restored, all its challenge secrets have the right length
exactly if those have it which it held at first and which were not superseded. -/
theorem secret_length_iff (opens : S.Opens) (origin : Origin S s m) (cs : List Change) (t : Tape) :
    (∀ u secret, (s.changes S cs t).2.1.secret S u = .ok (some secret) →
        secret.length = challengeSecretSize) ↔
      ∀ u secret, (m.held u).secret = some secret →
        (∀ p ∈ cs.zip (s.changes S cs t).1, ¬ p.1.Supersedes u p.2) →
        secret.length = challengeSecretSize := by
  have held := origin.represents.secret
  constructor
  · intro sized u secret hsecret unsuperseded
    refine sized u secret ?_
    rcases secret_changes opens cs s t u with ⟨⟨p, hp, hsupersedes⟩, _⟩ | ⟨_, hsame⟩
    · exact absurd hsupersedes (unsuperseded p hp)
    · rw [hsame, held, hsecret]
  · intro sized u secret hsecret
    rcases secret_changes opens cs s t u with ⟨_, hsized⟩ | ⟨unsuperseded, hsame⟩
    · exact hsized secret hsecret
    · rw [hsame, held] at hsecret
      exact sized u secret (Except.ok.inj hsecret) unsuperseded

/-! ## A key in the place of a challenge secret -/

/-- The wrapping key of a store on the bench. -/
def wrapping : SessionKey := Bench.Vault.empty.memory.wrappingKey

/-- A key of thirty-one bytes, sealed under the wrapping key. -/
def sealedKey : Bytes :=
  (wrapping.encrypt .standard (List.replicate 31 6) ⟨fun _ => 0, 0⟩).1.toOption.getD []

/-- A snapshot in which the key stands in the place of a challenge secret. -/
def misplaced : Snapshot := ⟨stranger, DeviceTable.empty.insert Bench.peer ⟨none, some sealedKey⟩⟩

/-- The store that is restored from the snapshot. -/
def restoredMisplaced : MemoryStore := ⟨stranger, wrapping, misplaced.devices⟩

/-- The key of thirty-one bytes opens under the wrapping key. -/
theorem decrypt_sealedKey : wrapping.decrypt .standard sealedKey = .ok (List.replicate 31 6) := by
  have hopens : (wrapping.decrypt .standard sealedKey).toOption = some (List.replicate 31 6) := by
    decide +kernel
  cases hplain : wrapping.decrypt .standard sealedKey with
  | error e =>
    rw [hplain] at hopens
    cases hopens
  | ok plain =>
    rw [hplain] at hopens
    exact congrArg Except.ok (Option.some.inj hopens)

/-- So nothing is wrong with the snapshot for a store that is restored from it. -/
theorem restore_misplaced : misplaced.restore .standard wrapping = .ok restoredMisplaced := by
  refine Snapshot.restore_eq_ok_iff.2 ⟨fun e he bs hbs => ?_, rfl⟩
  cases List.mem_singleton.1 he
  rcases hbs with hkey | hsecret
  · cases hkey
  · cases hsecret
    exact ⟨_, decrypt_sealedKey⟩

/-- A snapshot is restored with which a challenge secret of thirty-one bytes is answered. -/
theorem misplaced_secret_length :
    ¬ ∀ (snapshot : Snapshot) (key : SessionKey) (s : MemoryStore),
      snapshot.restore .standard key = .ok s →
        ∀ u secret, s.secret .standard u = .ok (some secret) → secret.length = challengeSecretSize := by
  intro sized
  have hsecret : restoredMisplaced.secret .standard Bench.peer = .ok (some (List.replicate 31 6)) := by
    unfold secret opened
    rw [show (restoredMisplaced.held Bench.peer).secret = some sealedKey from rfl]
    dsimp only
    rw [show restoredMisplaced.wrappingKey = wrapping from rfl, decrypt_sealedKey]
  have hlength := sized misplaced wrapping restoredMisplaced restore_misplaced _ _ hsecret
  exact absurd hlength (by decide)

/-- Once the device is forgotten, the lengths of all challenge secrets are right. -/
theorem forgotten_secret_length :
    Origin .standard restoredMisplaced (misplaced.contents .standard wrapping) ∧
    ∀ u secret, (restoredMisplaced.changes .standard [.saveKey Bench.peer [1], .forget Bench.peer]
      ⟨fun _ => 0, 0⟩).2.1.secret .standard u = .ok (some secret) →
        secret.length = challengeSecretSize := by
  have origin : Origin .standard restoredMisplaced (misplaced.contents .standard wrapping) :=
    .restored restore_misplaced
  refine ⟨origin, (secret_length_iff Suite.standard_opens origin _ _).2 ?_⟩
  intro u secret hsecret unsuperseded
  -- the peer is the only device with an entry, and it is forgotten
  have hu : u = Bench.peer := Decidable.byContradiction fun hother => by
    have hnone : misplaced.devices.find? u = none :=
      (DeviceTable.find?_insert ..).trans (if_neg hother)
    unfold SecretMap.held Snapshot.contents at hsecret
    rw [hnone] at hsecret
    cases hsecret
  subst hu
  exact absurd (.forgotten _) (unsuperseded (.forget Bench.peer, .ok ())
    (List.mem_cons_of_mem _ List.mem_cons_self))

end DevicePairing.MemoryStore
