import DevicePairing.Proofs.Json.Questions
import DevicePairing.Proofs.Store.Refinement
import Mathlib.Data.List.Nodup

/-!
# A store comes back from its text

The text of a snapshot reads as the snapshot (`Snapshot.ofText_jsonOf`), in whatever order the devices are
listed: the table is sorted again when it is read, and a secret that is left out is read as none. A store
that was made or restored, and changed in any way since, can open everything it holds
(`MemoryStore.represented_changes`). So it comes back from the text of its snapshot as it was, under its own
wrapping key (`MemoryStore.restored_from_text`). Under any key, a snapshot is refused exactly if something in
it does not open.
-/

namespace DevicePairing

/-! ## Tables -/

namespace DeviceTable

variable {α : Type} {u : Uuid} {a : α} {t : DeviceTable α}

/-- No device has two entries. -/
theorem nodup_entries (t : DeviceTable α) : (t.entries.map Prod.fst).Nodup :=
  t.sorted_devices.imp fun h huv => absurd (congrArg Uuid.toNat huv) (Nat.ne_of_lt h)

/-- So each entry is the one that is found for its device. -/
theorem find?_of_mem_entries (h : (u, a) ∈ t.entries) : t.find? u = some a := by
  rcases hfound : t.find? u with _ | b
  · exact absurd (List.mem_map_of_mem h) (mt mem_devices_iff.1 (not_not_intro hfound))
  · have hpair := List.inj_on_of_nodup_map t.nodup_entries (mem_entries_of_find? hfound) h rfl
    exact congrArg (fun e => some e.2) hpair

/-- A new entry joins the others, wherever it is put. -/
theorem perm_insertEntry {es : List (Uuid × α)} (new : u ∉ es.map Prod.fst) (a : α) :
    (insertEntry u a es).Perm ((u, a) :: es) := by
  induction es with
  | nil => exact .refl _
  | cons e es ih =>
    obtain ⟨hne, hnew⟩ := not_or.1 (mt List.mem_cons.2 new)
    unfold insertEntry
    split
    · exact .refl _
    · exact ((ih hnew).cons e).trans (.swap (u, a) e es)

/-- Entries for devices that have none yet are added. -/
theorem perm_foldl_insert (es : List (Uuid × α)) (t : DeviceTable α)
    (nodup : ((es ++ t.entries).map Prod.fst).Nodup) :
    (es.foldl (fun t e => t.insert e.1 e.2) t).entries.Perm (es ++ t.entries) := by
  induction es generalizing t with
  | nil => exact .refl _
  | cons e es ih =>
    rw [List.cons_append, List.map_cons, List.nodup_cons, List.map_append] at nodup
    obtain ⟨hnew, hnodup⟩ := nodup
    have hadded : (t.insert e.1 e.2).entries.Perm (e :: t.entries) :=
      perm_insertEntry (fun h => hnew (List.mem_append_right _ h)) e.2
    have hmoved : (es ++ (t.insert e.1 e.2).entries).Perm (e :: (es ++ t.entries)) :=
      (hadded.append_left es).trans List.perm_middle
    refine (ih _ ?_).trans hmoved
    rw [(hmoved.map Prod.fst).nodup_iff, List.map_cons, List.nodup_cons, List.map_append]
    exact ⟨hnew, hnodup⟩

/-- A table comes back from its entries in any order. -/
theorem ofList_of_perm {es : List (Uuid × α)} (h : es.Perm t.entries) : ofList es = t := by
  have hnodup : ((es ++ (empty : DeviceTable α).entries).map Prod.fst).Nodup := by
    show ((es ++ []).map Prod.fst).Nodup
    rw [List.append_nil, (h.map Prod.fst).nodup_iff]
    exact t.nodup_entries
  have hperm : (ofList es).entries.Perm t.entries := by
    refine (perm_foldl_insert es empty hnodup).trans ?_
    show (es ++ []).Perm t.entries
    rwa [List.append_nil]
  have hentries : (ofList es).entries = t.entries :=
    hperm.eq_of_pairwise (fun _ _ _ _ hlt hgt => absurd hlt (Nat.lt_asymm hgt)) (ofList es).sorted t.sorted
  cases hlist : ofList es
  cases t
  rw [hlist] at hentries
  cases hentries
  rfl

end DeviceTable

/-! ## Text -/

/-- Only the characters of the text are gone through, not all there are. -/
theorem printable_of_all {cs : List Char} (h : (cs.all (0x20 ≤ ·.toNat)) = true) :
    ∀ c ∈ cs, 0x20 ≤ c.toNat :=
  fun c hc => of_decide_eq_true (List.all_eq_true.1 h c hc)

/-- Digits need no escape. -/
theorem printable_hexChars (bs : Bytes) : ∀ c ∈ hexChars bs, 0x20 ≤ c.toNat := by
  have hdigit : ∀ n < 16, 0x20 ≤ (hexDigit n).toNat := by decide
  intro c hc
  obtain ⟨b, _, hb⟩ := List.mem_flatMap.1 hc
  have hbyte := b.toNat_lt
  rcases List.mem_cons.1 hb with rfl | hb
  · exact hdigit _ (by omega)
  · rw [List.mem_singleton.1 hb]
    exact hdigit _ (by omega)

/-- Nor do the characters of an identifier. -/
theorem Uuid.printable_text (u : Uuid) : ∀ c ∈ u.text.toList, 0x20 ≤ c.toNat := by
  have hhex := printable_hexChars u.toBytes
  intro c hc
  rw [text, String.toList_ofList] at hc
  unfold chars at hc
  simp only [List.mem_append, List.mem_cons] at hc
  rcases hc with h | rfl | h | rfl | h | rfl | h | rfl | h
  case inl => exact hhex c (List.mem_of_mem_take h)
  case inr.inr.inr.inr.inr.inr.inr.inr => exact hhex c (List.mem_of_mem_drop h)
  all_goals first
    | decide
    | exact hhex c (List.mem_of_mem_drop (List.mem_of_mem_take h))

/-- An identifier is read from the characters of its text. -/
theorem Uuid.ofChars?_text (u : Uuid) : ofChars? u.text.toList = some u := ofText?_text u

namespace Snapshot

/-- The JSON value of the snapshot of a device, with what is held for each device listed in a given order. -/
def jsonOf (u : Uuid) (es : List (Uuid × Holding)) : Json :=
  .ofFields [("unique_id", .ofString u.text),
    ("devices", .ofFields (es.map fun e => (e.1.text, secretsToJson e.2)))]

/-- A snapshot is written with its devices in their own order. -/
theorem toJson_eq_jsonOf (s : Snapshot) : s.toJson = jsonOf s.uniqueId s.devices.entries := rfl

/-- A secret is read as it was written, or as missing. -/
theorem secretOfJson?_map_ofBytes (secret : Option Bytes) :
    secretOfJson? (secret.map .ofBytes) = some secret := by
  cases secret with
  | none => rfl
  | some bs => exact congrArg (Option.map some) (Json.bytes?_ofBytes bs)

/-- A secret that is left out is read as none. -/
theorem secretsOfJson?_secretsToJson (h : Holding) :
    secretsOfJson? (secretsToJson h) = some h := by
  obtain ⟨key, secret⟩ := h
  obtain ⟨fields, hfields⟩ : ∃ fields,
      secretField "encryption_key" key ++ secretField "challenge_secret" secret = fields := ⟨_, rfl⟩
  have hnodup : (fields.map Prod.fst).Nodup := by
    rw [← hfields]
    cases key <;> cases secret <;> simp [secretField]
  have hvalues : (["encryption_key", "challenge_secret"].map fun name =>
      (fields.find? (·.1 = name)).map Prod.snd) = [key.map .ofBytes, secret.map .ofBytes] := by
    rw [← hfields]
    cases key <;> cases secret <;> simp [secretField, List.find?]
  unfold secretsOfJson? secretsToJson
  rw [hfields, Json.fields?_ofFields _ hnodup, hvalues]
  simp [secretOfJson?_map_ofBytes]

/-- An entry is read as it was written. -/
theorem entryOfJson?_entry (e : Uuid × Holding) :
    entryOfJson? (e.1.text.toList.map .char, secretsToJson e.2) = some e := by
  unfold entryOfJson?
  rw [TextUnit.spell?_map_char, secretsOfJson?_secretsToJson]
  simp [Uuid.ofChars?_text]

/-- A snapshot is read whatever order its devices are listed in, and then they are in their own. -/
theorem ofJson?_jsonOf (u : Uuid) (es : List (Uuid × Holding)) :
    ofJson? (jsonOf u es) = some ⟨u, .ofList es⟩ := by
  obtain ⟨members, hmembers⟩ :
    ∃ ms, (es.map fun e => (e.1.text.toList.map TextUnit.char, secretsToJson e.2)) = ms := ⟨_, rfl⟩
  have hentries : members.mapM entryOfJson? = some es := by
    rw [← hmembers, List.mapM_map]
    exact (Json.mapM_eq_some (k := id) fun e _ => entryOfJson?_entry e).trans
      (congrArg some (List.map_id es))
  have hdevices : Json.ofFields (es.map fun e => (e.1.text, secretsToJson e.2)) = .object members := by
    rw [← hmembers]
    exact congrArg Json.object List.map_map
  have hnodup : ([("unique_id", Json.ofString u.text), ("devices", .object members)].map
      Prod.fst).Nodup := by
    simp
  unfold ofJson? jsonOf
  rw [hdevices, Json.fields?_ofFields _ hnodup]
  simp [List.find?, hentries, Json.chars?_ofString, Uuid.ofChars?_text]

/-- A secret that is there has one field, and a missing one has none. -/
theorem eq_of_mem_secretField {name : String} {secret : Option Bytes} {f : String × Json}
    (h : f ∈ secretField name secret) : f.1 = name ∧ f.2.Plain := by
  cases secret with
  | none => cases h
  | some bs =>
    rw [List.mem_singleton.1 h]
    exact ⟨rfl, Json.plain_ofBytes bs⟩

/-- What is held for a device is written as a plain value. -/
theorem plain_secretsToJson (h : Holding) : (secretsToJson h).Plain := by
  refine Json.plain_ofFields (fun f hf => ?_) fun f hf => ?_
  · rcases List.mem_append.1 hf with hf | hf <;> rw [(eq_of_mem_secretField hf).1] <;>
      exact printable_of_all (by decide)
  · rcases List.mem_append.1 hf with hf | hf <;> exact (eq_of_mem_secretField hf).2

/-- So is a snapshot. -/
theorem plain_jsonOf (u : Uuid) (es : List (Uuid × Holding)) : (jsonOf u es).Plain := by
  have hdevices : (Json.ofFields (es.map fun e => (e.1.text, secretsToJson e.2))).Plain := by
    refine Json.plain_ofFields (fun f hf => ?_) fun f hf => ?_
    · obtain ⟨e, _, rfl⟩ := List.mem_map.1 hf
      exact e.1.printable_text
    · obtain ⟨e, _, rfl⟩ := List.mem_map.1 hf
      exact plain_secretsToJson e.2
  refine Json.plain_ofFields ?_ ?_
  · rintro f (_ | ⟨_, _ | ⟨_, h⟩⟩)
    · exact printable_of_all (show ("unique_id".toList.all _) = true by decide)
    · exact printable_of_all (show ("devices".toList.all _) = true by decide)
    · cases h
  · rintro f (_ | ⟨_, _ | ⟨_, h⟩⟩)
    · exact Json.plain_ofString u.printable_text
    · exact hdevices
    · cases h

/-- The text of a snapshot reads as the snapshot, in whatever order the devices are listed. -/
theorem ofText_jsonOf (snapshot : Snapshot) {es : List (Uuid × Holding)}
    (listed : es.Perm snapshot.devices.entries) :
    ofText (jsonOf snapshot.uniqueId es).pretty = .ok snapshot := by
  unfold ofText
  rw [Json.parse?_pretty (plain_jsonOf _ es), Option.bind_some, ofJson?_jsonOf,
    DeviceTable.ofList_of_perm listed]

/-- The text of a snapshot is read as the snapshot. -/
theorem ofText_text (snapshot : Snapshot) : ofText snapshot.text = .ok snapshot := by
  rw [text, toJson_eq_jsonOf]
  exact ofText_jsonOf snapshot (.refl _)

end Snapshot

namespace MemoryStore

variable {S : Suite} {s : MemoryStore} {m : SecretMap}

/-! ## Restoring -/

/-- What was answered did open. -/
theorem readable_of_opened {bs : Bytes} {answer : Option Bytes} (h : s.opened S (some bs) = .ok answer) :
    ∃ plain, s.wrappingKey.decrypt S bs = .ok plain := by
  cases hplain : s.wrappingKey.decrypt S bs with
  | error e => simp [opened, hplain] at h
  | ok plain => exact ⟨plain, rfl⟩

/-- What a store holds it can open, so it is restored from its snapshot. -/
theorem Represents.restores (h : Represents S s m) : s.snapshot.restore S s.wrappingKey = .ok s := by
  refine Snapshot.restore_eq_ok_iff.2 ⟨fun e he bs hbs => ?_, rfl⟩
  have hheld : s.held e.1 = e.2 := by
    unfold held
    rw [show s.devices.find? e.1 = some e.2 from DeviceTable.find?_of_mem_entries he]
    rfl
  have hkey := h.key e.1
  have hsecret := h.secret e.1
  unfold MemoryStore.key at hkey
  unfold MemoryStore.secret at hsecret
  rw [hheld] at hkey hsecret
  rcases hbs with hbs | hbs
  · rw [hbs] at hkey
    exact readable_of_opened hkey
  · rw [hbs] at hsecret
    exact readable_of_opened hsecret

/-- Whether a change is accepted or refused, what the store holds then is known. -/
theorem represented_change (opens : S.Opens) (h : Represents S s m) (c : Change) (t : Tape) :
    ∃ m', Represents S (s.change S c t).2.1 m' := by
  cases c with
  | saveKey device value =>
    rw [change_saveKey]
    rcases hsave : s.saveKey S device value t with ⟨e | ⟨⟩, s', t'⟩
    · exact ⟨m, saveKey_refused hsave ▸ h⟩
    · exact ⟨_, h.saveKey opens hsave⟩
  | saveSecret device value =>
    rw [change_saveSecret]
    rcases hsave : s.saveSecret S device value t with ⟨e | ⟨⟩, s', t'⟩
    · exact ⟨m, saveSecret_refused hsave ▸ h⟩
    · exact ⟨_, h.saveSecret opens hsave⟩
  | forget device => exact ⟨_, h.forget device⟩

/-- A store that holds what some map says does so after any changes, be they refused or not. -/
theorem represented_changes (opens : S.Opens) (h : Represents S s m) (cs : List Change) (t : Tape) :
    ∃ m', Represents S (s.changes S cs t).2.1 m' := by
  induction cs generalizing s m t with
  | nil => exact ⟨m, h⟩
  | cons c cs ih =>
    obtain ⟨m', hchanged⟩ := represented_change opens h c t
    exact ih hchanged (s.change S c t).2.2

/-- A snapshot is refused under a wrapping key exactly if one of its sealed values does not open. -/
theorem restore_fails_iff {snapshot : Snapshot} {key : SessionKey} :
    (∃ e, snapshot.restore S key = .error e) ↔
      ∃ u h bs cause, snapshot.devices.find? u = some h ∧ (h.key = some bs ∨ h.secret = some bs) ∧
        key.decrypt S bs = .error cause := by
  constructor
  · rintro ⟨e, hfails⟩
    by_contra hopen
    have hreadable : ∀ e ∈ snapshot.devices.entries, e.2.Readable S key := by
      intro e he bs hbs
      cases hplain : key.decrypt S bs with
      | error cause =>
        exact absurd ⟨_, _, bs, cause, DeviceTable.find?_of_mem_entries he, hbs, hplain⟩ hopen
      | ok plain => exact ⟨plain, rfl⟩
    cases hfails.symm.trans (Snapshot.restore_eq_ok_iff.2 ⟨hreadable, rfl⟩)
  · rintro ⟨u, h, bs, cause, hfind, hbs, hfails⟩
    cases hrestored : snapshot.restore S key with
    | error e => exact ⟨e, rfl⟩
    | ok s =>
      have hreadable := (Snapshot.restore_eq_ok_iff.1 hrestored).1
      obtain ⟨plain, hplain⟩ := hreadable _ (DeviceTable.mem_entries_of_find? hfind) bs hbs
      cases hfails.symm.trans hplain

/-- A store that was made or restored, after any changes: the text of its snapshot, in whatever order the
devices are listed, reads as the snapshot, and under the wrapping key of the store it is restored to the very
store, with its identifier and all that it holds. Any snapshot under any key is refused exactly if a sealed
value in it does not open. -/
theorem restored_from_text (opens : S.Opens) (origin : Origin S s m) (cs : List Change) (t : Tape) :
    (∀ es, es.Perm (s.changes S cs t).2.1.devices.entries →
      Snapshot.ofText (Snapshot.jsonOf (s.changes S cs t).2.1.uniqueId es).pretty =
        .ok (s.changes S cs t).2.1.snapshot) ∧
    Snapshot.ofText (s.changes S cs t).2.1.snapshot.text = .ok (s.changes S cs t).2.1.snapshot ∧
    (s.changes S cs t).2.1.snapshot.restore S (s.changes S cs t).2.1.wrappingKey =
      .ok (s.changes S cs t).2.1 ∧
    ∀ (snapshot : Snapshot) (key : SessionKey),
      (∃ e, snapshot.restore S key = .error e) ↔
        ∃ u h bs cause, snapshot.devices.find? u = some h ∧ (h.key = some bs ∨ h.secret = some bs) ∧
          key.decrypt S bs = .error cause := by
  obtain ⟨m', hend⟩ := represented_changes opens origin.represents cs t
  generalize (s.changes S cs t).2.1 = s' at hend ⊢
  exact ⟨fun es listed => Snapshot.ofText_jsonOf s'.snapshot listed, Snapshot.ofText_text s'.snapshot,
    hend.restores, fun _ _ => restore_fails_iff⟩

/-- A key is kept for one device, both secrets for a second one, and one for a third one that is forgotten. -/
def gathering : List Change :=
  [.saveKey Bench.peer [1], .saveSecret stranger (List.replicate 32 2), .saveKey stranger [],
    .saveKey .nil [5], .forget .nil]

/-- The store of another device after that. -/
def gathered : MemoryStore :=
  ((ofUniqueId ⟨⟨List.replicate 16 6, rfl⟩⟩ ⟨fun _ => 7, 0⟩).1.changes .standard gathering
    ⟨fun i => i.toUInt8, 32⟩).2.1

/-- It comes back from its text, also with the devices in the opposite order. -/
theorem gathered_restored_from_text :
    Suite.standard.Opens ∧
    Origin .standard (ofUniqueId ⟨⟨List.replicate 16 6, rfl⟩⟩ ⟨fun _ => 7, 0⟩).1 .empty ∧
    gathered.known = [Bench.peer, stranger] ∧
    secrets .standard gathered Bench.peer = ⟨some [1], none⟩ ∧
    secrets .standard gathered stranger = ⟨some [], some (List.replicate 32 2)⟩ ∧
    Snapshot.ofText (Snapshot.jsonOf gathered.uniqueId gathered.devices.entries.reverse).pretty =
      .ok gathered.snapshot ∧
    gathered.snapshot.restore .standard gathered.wrappingKey = .ok gathered := by
  have origin := Origin.made (S := .standard) ⟨⟨List.replicate 16 6, rfl⟩⟩ ⟨fun _ => 7, 0⟩
  obtain ⟨hlisted, -, hrestored, -⟩ :=
    restored_from_text Suite.standard_opens origin gathering ⟨fun i => i.toUInt8, 32⟩
  exact ⟨Suite.standard_opens, origin, by decide +kernel, by decide +kernel, by decide +kernel,
    hlisted _ (List.reverse_perm _), hrestored⟩

end MemoryStore

end DevicePairing
