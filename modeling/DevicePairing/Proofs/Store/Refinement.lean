import DevicePairing.Bench
import DevicePairing.Proofs.Store.View
import DevicePairing.Store.Snapshot

/-!
# A store in memory is a plain map

A store in memory keeps everything sealed, each secret under a nonce of its own, and both secrets of a device
in one entry. Of all that nothing shows. What the store answers is what a plain map from devices to secrets
answers, in which a save replaces one secret, a challenge secret of the wrong length is refused, and a device
that is forgotten has no entry (`SecretMap`). `MemoryStore.answers_as_map` says so for every store that was made
empty or restored from a snapshot, and for every list of changes.

`MemoryStore.Represents` relates a store to its map: they have entries for the same devices, and every sealed
value opens to what the map holds. A store that was made has it, one that was restored has it because
every value of the snapshot was tried (`Snapshot.restore_eq_ok_iff`), and every change keeps it.
-/

namespace DevicePairing

/-! ## Changes -/

/-- A change to a store. -/
inductive MemoryStore.Change where
  /-- To keep a key for a device. -/
  | saveKey (device : Uuid) (key : Bytes)
  /-- To keep a challenge secret for a device. -/
  | saveSecret (device : Uuid) (secret : Bytes)
  /-- To remove all that is held for a device. -/
  | forget (device : Uuid)

namespace MemoryStore

/-- What is to be sealed for a change. -/
def Change.value? : Change → Option Bytes
  | .saveKey _ value | .saveSecret _ value => some value
  | .forget _ => none

/-- The cipher can seal what a change is to keep, under every key and every nonce. -/
def Change.Sealable (S : Suite) (c : Change) : Prop :=
  ∀ value, c.value? = some value → ∀ key nonce, ∃ sealed, S.encrypt key nonce value = some sealed

variable (S : Suite)

/-- Makes a change and says how it is answered. -/
def change : Change → MemoryStore → Tape → Except StorageError Unit × MemoryStore × Tape
  | .saveKey device value, s, t => s.saveKey S device value t
  | .saveSecret device value, s, t => s.saveSecret S device value t
  | .forget device, s, t => (.ok (), s.forget device, t)

/-- Makes changes one after another. -/
def changes : List Change → MemoryStore → Tape → List (Except StorageError Unit) × MemoryStore × Tape
  | [], s, t => ([], s, t)
  | c :: cs, s, t =>
    let (answer, s, t) := s.change S c t
    let (answers, s, t) := changes cs s t
    (answer :: answers, s, t)

end MemoryStore

/-- A plain map from devices to secrets. -/
def SecretMap : Type := Uuid → Option Secrets

namespace SecretMap

/-- The map without entries. -/
def empty : SecretMap := fun _ => none

/-- The secrets of a device; without an entry it has none. -/
def held (m : SecretMap) (u : Uuid) : Secrets := (m u).getD ⟨none, none⟩

/-- Sets or removes the entry of a device. -/
def set (m : SecretMap) (u : Uuid) (entry : Option Secrets) : SecretMap :=
  fun v => if v = u then entry else m v

/-- Makes a change and says how it is answered. -/
def change : MemoryStore.Change → SecretMap → Except StorageError Unit × SecretMap
  | .saveKey device value, m => (.ok (), m.set device (some { m.held device with key := some value }))
  | .saveSecret device value, m =>
    if value.length ≠ challengeSecretSize then (.error (.secretLength value.length), m)
    else (.ok (), m.set device (some { m.held device with secret := some value }))
  | .forget device, m => (.ok (), m.set device none)

/-- Makes changes one after another. -/
def changes : List MemoryStore.Change → SecretMap → List (Except StorageError Unit) × SecretMap
  | [], m => ([], m)
  | c :: cs, m =>
    let (answer, m) := m.change c
    let (answers, m) := changes cs m
    (answer :: answers, m)

/-- Only the entry that was set is another one. -/
theorem set_apply (m : SecretMap) (u : Uuid) (entry : Option Secrets) (v : Uuid) :
    m.set u entry v = if v = u then entry else m v := rfl

/-- So only the secrets of its device are. -/
theorem held_set (m : SecretMap) (u : Uuid) (entry : Option Secrets) (v : Uuid) :
    (m.set u entry).held v = if v = u then entry.getD ⟨none, none⟩ else m.held v := by
  unfold held
  rw [set_apply]
  split <;> rfl

/-- A challenge secret of the right length replaces the one that was held. -/
theorem change_saveSecret_of_size {value : Bytes} (size : value.length = challengeSecretSize)
    (device : Uuid) (m : SecretMap) :
    m.change (.saveSecret device value) =
      (.ok (), m.set device (some { m.held device with secret := some value })) :=
  if_neg (not_not_intro size)

/-- One of another length is refused and changes nothing. -/
theorem change_saveSecret_of_missized {value : Bytes} (size : value.length ≠ challengeSecretSize)
    (device : Uuid) (m : SecretMap) :
    m.change (.saveSecret device value) = (.error (.secretLength value.length), m) :=
  if_pos size

end SecretMap

/-! ## What a snapshot holds -/

variable {S : Suite}

variable (S) in
/-- Every sealed value that is held for a device opens. -/
def Holding.Readable (key : SessionKey) (h : Holding) : Prop :=
  ∀ bs, h.key = some bs ∨ h.secret = some bs → ∃ plain, key.decrypt S bs = .ok plain

/-- What is found for a device is among the entries. -/
theorem DeviceTable.mem_entries_of_find? {α : Type} {u : Uuid} {a : α} {t : DeviceTable α}
    (h : t.find? u = some a) : (u, a) ∈ t.entries := by
  unfold find? at h
  obtain ⟨⟨v, b⟩, hfound, rfl⟩ := Option.map_eq_some_iff.1 h
  have hdevice : v = u := by simpa using List.find?_some hfound
  exact hdevice ▸ List.mem_of_find?_eq_some hfound

namespace Snapshot

variable {key : SessionKey}

variable (S) in
/-- What a snapshot holds, opened under a wrapping key. -/
def contents (key : SessionKey) (snapshot : Snapshot) : SecretMap := fun u =>
  (snapshot.devices.find? u).map fun h =>
    ⟨h.key.bind fun bs => (key.decrypt S bs).toOption,
      h.secret.bind fun bs => (key.decrypt S bs).toOption⟩

/-- An entry passes the trial of a restored store exactly if all that is held in it opens. -/
theorem tryEntry_eq_ok_iff {e : Uuid × Holding} :
    tryEntry S key e = .ok () ↔ e.2.Readable S key := by
  have hmem : ∀ bs, bs ∈ [e.2.key, e.2.secret].filterMap id ↔
      e.2.key = some bs ∨ e.2.secret = some bs := by
    intro bs
    simp [eq_comm]
  unfold tryEntry
  split
  next hnone =>
    refine iff_of_true rfl fun bs hbs => ?_
    have hopens := List.findSome?_eq_none_iff.1 hnone bs ((hmem bs).2 hbs)
    split at hopens
    · next plain hplain => exact ⟨plain, hplain⟩
    · cases hopens
  next cause hsome =>
    refine iff_of_false nofun fun readable => ?_
    obtain ⟨bs, hbs, hfails⟩ := List.exists_of_findSome?_eq_some hsome
    obtain ⟨plain, hplain⟩ := readable bs ((hmem bs).1 hbs)
    rw [hplain] at hfails
    cases hfails

/-- A list is gone through to its end exactly if nothing on the way is refused. -/
theorem forM_eq_ok_iff {α ε : Type} {f : α → Except ε Unit} {l : List α} :
    forM l f = .ok () ↔ ∀ a ∈ l, f a = .ok () := by
  induction l with
  | nil => exact iff_of_true rfl (List.forall_mem_nil _)
  | cons a l ih =>
    rw [List.forall_mem_cons, ← ih, List.forM_cons]
    cases hf : f a with
    | error e => exact iff_of_false nofun fun h => nomatch h.1
    | ok u => exact (and_iff_right rfl).symm

/-- A snapshot is restored exactly if every sealed value opens, and then as it is. -/
theorem restore_eq_ok_iff {snapshot : Snapshot} {s : MemoryStore} :
    snapshot.restore S key = .ok s ↔
      (∀ e ∈ snapshot.devices.entries, e.2.Readable S key) ∧
        s = ⟨snapshot.uniqueId, key, snapshot.devices⟩ := by
  have htried : snapshot.devices.entries.forM (tryEntry S key) = .ok () ↔
      ∀ e ∈ snapshot.devices.entries, e.2.Readable S key := by
    rw [List.forM_eq_forM, forM_eq_ok_iff]
    exact forall₂_congr fun e _ => tryEntry_eq_ok_iff
  unfold restore
  split
  next hok =>
    rw [← htried, hok]
    exact ⟨fun h => ⟨rfl, (Except.ok.inj h).symm⟩, fun h => congrArg Except.ok h.2.symm⟩
  next e herror =>
    refine iff_of_false nofun fun h => ?_
    cases herror.symm.trans (htried.2 h.1)

end Snapshot

namespace MemoryStore

/-! ## A store and its map -/

variable (S) in
/-- A store holds what a map says. -/
structure Represents (s : MemoryStore) (m : SecretMap) : Prop where
  /-- They have entries for the same devices. -/
  known : ∀ u, s.devices.find? u = none ↔ m u = none
  /-- Every sealed value opens, to what the map holds. -/
  answers : ∀ u, s.answers S u = (.ok (m.held u).key, .ok (m.held u).secret)

variable {s s' : MemoryStore} {m : SecretMap} {t t' : Tape}

/-- A new store holds nothing. -/
theorem represents_ofUniqueId (u : Uuid) (t : Tape) : Represents S (ofUniqueId u t).1 .empty where
  known _ := iff_of_true rfl rfl
  answers _ := rfl

/-- What opens is answered, opened. -/
theorem opened_of_readable {value : Option Bytes}
    (h : ∀ bs, value = some bs → ∃ plain, s.wrappingKey.decrypt S bs = .ok plain) :
    s.opened S value = .ok (value.bind fun bs => (s.wrappingKey.decrypt S bs).toOption) := by
  cases value with
  | none => rfl
  | some bs =>
    obtain ⟨plain, hplain⟩ := h bs rfl
    simp [opened, hplain, Except.toOption]

/-- A store that was restored holds what the snapshot holds. -/
theorem represents_restored {snapshot : Snapshot} {key : SessionKey}
    (h : snapshot.restore S key = .ok s) : Represents S s (snapshot.contents S key) := by
  obtain ⟨hreadable, rfl⟩ := Snapshot.restore_eq_ok_iff.1 h
  refine ⟨fun u => Option.map_eq_none_iff.symm, fun u => ?_⟩
  unfold answers MemoryStore.key secret held SecretMap.held Snapshot.contents
  cases hfound : snapshot.devices.find? u with
  | none => rfl
  | some holding =>
    have hholding := hreadable _ (DeviceTable.mem_entries_of_find? hfound)
    exact congr (congrArg Prod.mk (opened_of_readable fun bs hbs => hholding bs (.inl hbs)))
      (opened_of_readable fun bs hbs => hholding bs (.inr hbs))

/-- So the store answers with the key in the map. -/
theorem Represents.key (h : Represents S s m) (u : Uuid) : s.key S u = .ok (m.held u).key :=
  congrArg Prod.fst (h.answers u)

/-- It answers with the challenge secret in the map. -/
theorem Represents.secret (h : Represents S s m) (u : Uuid) : s.secret S u = .ok (m.held u).secret :=
  congrArg Prod.snd (h.answers u)

/-- If the entry of one device is another one now, and all others are as they were, so is it in the map. -/
theorem Represents.set (h : Represents S s m) {device : Uuid} {entry : Option Secrets}
    (known : ∀ u, s'.devices.find? u = none ↔
      if u = device then entry = none else s.devices.find? u = none)
    (answered : ∀ u, s'.answers S u =
      if u = device then (.ok (entry.getD ⟨none, none⟩).key, .ok (entry.getD ⟨none, none⟩).secret)
      else s.answers S u) :
    Represents S s' (m.set device entry) where
  known u := by
    rw [known, SecretMap.set_apply]
    split
    · exact Iff.rfl
    · exact h.known u
  answers u := by
    rw [answered, SecretMap.held_set]
    split
    · rfl
    · exact h.answers u

/-- A key that was kept is in the map then. -/
theorem Represents.saveKey (opens : S.Opens) (h : Represents S s m) {device : Uuid} {value : Bytes}
    (saved : s.saveKey S device value t = (.ok (), s', t')) :
    Represents S s' (m.set device (some { m.held device with key := some value })) := by
  refine h.set (fun u => ?_) fun u => ?_
  · obtain ⟨bs, -, hfind⟩ := find?_saveKey saved u
    rw [hfind]
    split <;> simp
  · rw [answers_saveKey opens saved, h.secret]
    rfl

/-- A challenge secret that was kept is in the map then. -/
theorem Represents.saveSecret (opens : S.Opens) (h : Represents S s m) {device : Uuid} {value : Bytes}
    (saved : s.saveSecret S device value t = (.ok (), s', t')) :
    Represents S s' (m.set device (some { m.held device with secret := some value })) := by
  refine h.set (fun u => ?_) fun u => ?_
  · obtain ⟨bs, -, hfind⟩ := find?_saveSecret saved u
    rw [hfind]
    split <;> simp
  · rw [answers_saveSecret opens saved, h.key]
    rfl

/-- What is answered after a device was forgotten. -/
theorem answers_forget (s : MemoryStore) (device u : Uuid) :
    answers S (s.forget device) u = if u = device then (.ok none, .ok none) else answers S s u := by
  unfold answers MemoryStore.key MemoryStore.secret held
  rw [find?_forget]
  split <;> rfl

/-- A device that was forgotten is not in the map then. -/
theorem Represents.forget (h : Represents S s m) (device : Uuid) :
    Represents S (s.forget device) (m.set device none) := by
  refine h.set (fun u => ?_) fun u => answers_forget s device u
  rw [find?_forget]
  split <;> simp

/-! ## Along changes -/

/-- What the cipher seals, the store keeps. -/
theorem sealed_of_sealable {value : Bytes}
    (sealable : ∀ key nonce, ∃ sealed, S.encrypt key nonce value = some sealed) (s : MemoryStore)
    (t : Tape) : ∃ bs, s.sealed S value t = (.ok bs, (t.draw nonceSize).2) := by
  obtain ⟨cipherText, hc⟩ := sealable s.wrappingKey.octets (t.draw nonceSize).1
  refine ⟨(t.draw nonceSize).1.val ++ cipherText, ?_⟩
  unfold sealed SessionKey.encrypt SessionKey.sealWith
  simp only [hc]

/-- A key that can be sealed is kept. -/
theorem saveKey_of_sealed {value bs : Bytes} (h : s.sealed S value t = (.ok bs, t')) (device : Uuid) :
    ∃ s', s.saveKey S device value t = (.ok (), s', t') := by
  unfold saveKey
  rw [h]
  exact ⟨_, rfl⟩

/-- A challenge secret of the right length is kept, if it can be sealed. -/
theorem saveSecret_of_sealed {value bs : Bytes} (h : s.sealed S value t = (.ok bs, t'))
    (size : value.length = challengeSecretSize) (device : Uuid) :
    ∃ s', s.saveSecret S device value t = (.ok (), s', t') := by
  unfold saveSecret
  rw [if_neg (not_not_intro size), h]
  exact ⟨_, rfl⟩

/-- A challenge secret of the wrong length is refused before anything is drawn or kept. -/
theorem saveSecret_of_missized {value : Bytes} (size : value.length ≠ challengeSecretSize)
    (device : Uuid) (s : MemoryStore) (t : Tape) :
    s.saveSecret S device value t = (.error (.secretLength value.length), s, t) := if_pos size

/-- To have a key kept is one change. -/
theorem change_saveKey (device : Uuid) (value : Bytes) (s : MemoryStore) (t : Tape) :
    s.change S (.saveKey device value) t = s.saveKey S device value t := rfl

/-- To have a challenge secret kept is another. -/
theorem change_saveSecret (device : Uuid) (value : Bytes) (s : MemoryStore) (t : Tape) :
    s.change S (.saveSecret device value) t = s.saveSecret S device value t := rfl

/-- A change is answered as the map answers it, and leaves what the map says. -/
theorem Represents.change (opens : S.Opens) (h : Represents S s m) {c : Change}
    (sealable : c.Sealable S) (t : Tape) :
    (s.change S c t).1 = (m.change c).1 ∧ Represents S (s.change S c t).2.1 (m.change c).2 := by
  cases c with
  | saveKey device value =>
    obtain ⟨bs, hbs⟩ := sealed_of_sealable (sealable value rfl) s t
    obtain ⟨s', hsaved⟩ := saveKey_of_sealed hbs device
    rw [change_saveKey, hsaved]
    exact ⟨rfl, h.saveKey opens hsaved⟩
  | saveSecret device value =>
    rw [change_saveSecret]
    by_cases size : value.length = challengeSecretSize
    · obtain ⟨bs, hbs⟩ := sealed_of_sealable (sealable value rfl) s t
      obtain ⟨s', hsaved⟩ := saveSecret_of_sealed hbs size device
      rw [hsaved, SecretMap.change_saveSecret_of_size size]
      exact ⟨rfl, h.saveSecret opens hsaved⟩
    · rw [saveSecret_of_missized size, SecretMap.change_saveSecret_of_missized size]
      exact ⟨rfl, h⟩
  | forget device => exact ⟨rfl, h.forget device⟩

/-- Any number of changes are answered alike, and the store holds what the map says after them. -/
theorem Represents.changes (opens : S.Opens) (h : Represents S s m) {cs : List Change}
    (sealable : ∀ c ∈ cs, c.Sealable S) (t : Tape) :
    (s.changes S cs t).1 = (m.changes cs).1 ∧
      Represents S (s.changes S cs t).2.1 (m.changes cs).2 := by
  induction cs generalizing s m t with
  | nil => exact ⟨rfl, h⟩
  | cons c cs ih =>
    obtain ⟨hanswer, hchanged⟩ := h.change opens (sealable c List.mem_cons_self) t
    obtain ⟨hanswers, hend⟩ :=
      ih hchanged (fun c hc => sealable c (List.mem_cons_of_mem _ hc)) (s.change S c t).2.2
    exact ⟨congr (congrArg List.cons hanswer) hanswers, hend⟩

/-! ## What is answered -/

variable (S) in
/-- A store answers every question as a map does. -/
structure AnswersAs (s : MemoryStore) (m : SecretMap) : Prop where
  /-- The key of a device is the one in the map. -/
  key : ∀ u, s.key S u = .ok (m.held u).key
  /-- So is the challenge secret. -/
  secret : ∀ u, s.secret S u = .ok (m.held u).secret
  /-- Values are hashed under the challenge secret in the map, and only without one this fails. -/
  hash : ∀ u value, (store S).hash S u value s =
    (match (m.held u).secret with
      | some secret => .ok (S.mac secret value)
      | none => .error (.missingSecret u), s)
  /-- The known devices are listed in increasing order, each once. -/
  sorted : s.known.Pairwise fun u v => u.toNat < v.toNat
  /-- They are those that have an entry in the map. -/
  known : ∀ u, u ∈ s.known ↔ m u ≠ none

/-- A store that holds what a map says answers as the map does. -/
theorem Represents.answersAs (h : Represents S s m) : AnswersAs S s m where
  key := h.key
  secret := h.secret
  hash u value := by
    unfold SecretStore.hash store
    dsimp only
    rw [h.secret]
    cases (m.held u).secret <;> rfl
  sorted := s.devices.sorted_devices
  known u := DeviceTable.mem_devices_iff.trans (not_congr (h.known u))

variable (S) in
/-- The stores as they come to be, and what they hold then. -/
inductive Origin : MemoryStore → SecretMap → Prop where
  /-- A store that is made holds nothing. -/
  | made (u : Uuid) (t : Tape) : Origin (ofUniqueId u t).1 .empty
  /-- A store that is restored holds what the snapshot holds. -/
  | restored {snapshot : Snapshot} {key : SessionKey} {s : MemoryStore}
    (restored : snapshot.restore S key = .ok s) : Origin s (snapshot.contents S key)

/-- So it is for every store that comes to be, made or restored. -/
theorem Origin.represents (h : Origin S s m) : Represents S s m := by
  cases h with
  | made u t => exact represents_ofUniqueId u t
  | restored restored => exact represents_restored restored

/-- If the cipher opens what it seals, and seals what is to be kept, a store that was made or restored
answers every list of changes as a plain map does, and after them every question. -/
theorem answers_as_map (opens : S.Opens) (origin : Origin S s m) {cs : List Change}
    (sealable : ∀ c ∈ cs, c.Sealable S) (t : Tape) :
    (s.changes S cs t).1 = (m.changes cs).1 ∧
      AnswersAs S (s.changes S cs t).2.1 (m.changes cs).2 := by
  obtain ⟨hanswers, hend⟩ := origin.represents.changes opens sealable t
  exact ⟨hanswers, hend.answersAs⟩

/-- Short values can be sealed by a cipher that seals all but the very long. -/
theorem Change.sealable_of_short {c : Change} (seals : S.Seals)
    (short : ∀ value, c.value? = some value → value.length < 64) : c.Sealable S := by
  intro value hvalue key nonce
  have hlimit : value.length / 64 < AuthenticatedCipher.blockLimit := by
    rw [Nat.div_eq_of_lt (short value hvalue)]
    decide
  obtain ⟨sealed, hsealed, -⟩ := seals key nonce value hlimit
  exact ⟨sealed, hsealed⟩

/-- A device for which nothing is held. -/
def stranger : Uuid := ⟨⟨List.replicate 16 4, rfl⟩⟩

/-- The key of the peer is replaced, two challenge secrets of the wrong length are refused, and a device that
is not known is forgotten. -/
def retouching : List Change :=
  [.saveKey Bench.peer [1], .saveSecret Bench.peer [2], .saveSecret stranger [2], .forget stranger]

/-- What comes of the changes to a store that was restored from a snapshot. -/
theorem retouched_answers_as_map : ∃ s : MemoryStore,
    Bench.Vault.acquainted.memory.snapshot.restore .standard
      Bench.Vault.acquainted.memory.wrappingKey = .ok s ∧
    (s.changes .standard retouching ⟨fun _ => 0, 0⟩).1 =
      [.ok (), .error (.secretLength 1), .error (.secretLength 1), .ok ()] ∧
    (s.changes .standard retouching ⟨fun _ => 0, 0⟩).2.1.key .standard Bench.peer = .ok (some [1]) ∧
    (s.changes .standard retouching ⟨fun _ => 0, 0⟩).2.1.secret .standard Bench.peer =
      .ok (some (List.replicate 32 2)) ∧
    stranger ∉ (s.changes .standard retouching ⟨fun _ => 0, 0⟩).2.1.known := by
  have hrestores : (Bench.Vault.acquainted.memory.snapshot.restore .standard
      Bench.Vault.acquainted.memory.wrappingKey).isOk = true := by
    decide +kernel
  cases hrestored : Bench.Vault.acquainted.memory.snapshot.restore .standard
      Bench.Vault.acquainted.memory.wrappingKey with
  | error e =>
    rw [hrestored] at hrestores
    cases hrestores
  | ok s =>
    have sealable : ∀ c ∈ retouching, c.Sealable .standard := by
      intro c hc
      refine Change.sealable_of_short Suite.standard_seals fun value hvalue => ?_
      simp only [retouching, List.mem_cons, List.not_mem_nil, or_false] at hc
      rcases hc with rfl | rfl | rfl | rfl <;> cases hvalue <;> decide
    obtain ⟨hanswers, hend⟩ := answers_as_map Suite.standard_opens (.restored hrestored) sealable
      ⟨fun _ => 0, 0⟩
    have hsecret : ((SecretMap.changes retouching (Bench.Vault.acquainted.memory.snapshot.contents
        .standard Bench.Vault.acquainted.memory.wrappingKey)).2.held Bench.peer).secret =
        some (List.replicate 32 2) := by
      decide +kernel
    refine ⟨s, rfl, hanswers, hend.key _, (hend.secret _).trans (congrArg Except.ok hsecret), ?_⟩
    rw [hend.known]
    decide +kernel

end MemoryStore

end DevicePairing
