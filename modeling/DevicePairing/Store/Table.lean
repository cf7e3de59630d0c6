import DevicePairing.Uuid

/-!
# Tables of devices

A table holds at most one entry for each device, sorted by identifier. What it means is the partial
function `find?`; `find?_insert` and `find?_erase` say how it changes.
-/

namespace DevicePairing

/-- Entries by device. -/
structure DeviceTable (α : Type) where
  /-- The entries. -/
  entries : List (Uuid × α)
  /-- They are in increasing order of their devices. -/
  sorted : entries.Pairwise fun a b => a.1.toNat < b.1.toNat

namespace DeviceTable

variable {α : Type}

/-- The table without entries. -/
def empty : DeviceTable α := ⟨[], .nil⟩

/-- The entry of a device. -/
def find? (u : Uuid) (t : DeviceTable α) : Option α :=
  (t.entries.find? (·.1 = u)).map (·.2)

/-- The devices that have an entry, in increasing order. -/
def devices (t : DeviceTable α) : List Uuid := t.entries.map (·.1)

/-- The sorted list with the entry of a device set. -/
def insertEntry (u : Uuid) (a : α) : List (Uuid × α) → List (Uuid × α)
  | [] => [(u, a)]
  | (v, b) :: rest =>
    if u.toNat < v.toNat then (u, a) :: (v, b) :: rest
    else if u = v then (u, a) :: rest
    else (v, b) :: insertEntry u a rest

/-- An entry of the new table is the one that was inserted or was there before. -/
theorem eq_or_mem_of_mem_insertEntry {u : Uuid} {a : α} {e : Uuid × α} :
    ∀ {es : List (Uuid × α)}, e ∈ insertEntry u a es → e = (u, a) ∨ e ∈ es
  | [], h => Or.inl (List.mem_singleton.1 h)
  | (v, b) :: rest, h => by
    unfold insertEntry at h
    split at h
    · exact List.mem_cons.1 h
    split at h
    · exact (List.mem_cons.1 h).imp_right (List.mem_cons_of_mem _)
    · rcases List.mem_cons.1 h with h | h
      · exact Or.inr (h ▸ List.mem_cons_self)
      · exact (eq_or_mem_of_mem_insertEntry h).imp_right (List.mem_cons_of_mem _)

/-- To insert an entry keeps the devices in order. -/
theorem sorted_insertEntry {u : Uuid} {a : α} :
    ∀ {es : List (Uuid × α)}, es.Pairwise (fun a b => a.1.toNat < b.1.toNat) →
      (insertEntry u a es).Pairwise fun a b => a.1.toNat < b.1.toNat
  | [], _ => List.pairwise_singleton _ _
  | (v, b) :: rest, h => by
    obtain ⟨hv, hrest⟩ := List.pairwise_cons.1 h
    unfold insertEntry
    split
    · next hlt =>
      refine List.pairwise_cons.2 ⟨fun e he => ?_, h⟩
      rcases List.mem_cons.1 he with rfl | he
      · exact hlt
      · exact Nat.lt_trans hlt (hv e he)
    split
    · next heq => exact List.pairwise_cons.2 ⟨fun e he => heq ▸ hv e he, hrest⟩
    · next hlt hne =>
      refine List.pairwise_cons.2 ⟨fun e he => ?_, sorted_insertEntry hrest⟩
      rcases eq_or_mem_of_mem_insertEntry he with rfl | he
      · have : u.toNat ≠ v.toNat := fun h => hne (Uuid.toNat_inj h)
        show v.toNat < u.toNat
        omega
      · exact hv e he

/-- Sets the entry of a device. -/
def insert (u : Uuid) (a : α) (t : DeviceTable α) : DeviceTable α :=
  ⟨insertEntry u a t.entries, sorted_insertEntry t.sorted⟩

/-- Removes the entry of a device. -/
def erase (u : Uuid) (t : DeviceTable α) : DeviceTable α :=
  ⟨t.entries.filter (·.1 ≠ u), t.sorted.sublist List.filter_sublist⟩

/-- The table of a list of entries, of which a later one replaces an earlier one. -/
def ofList (es : List (Uuid × α)) : DeviceTable α :=
  es.foldl (fun t e => t.insert e.1 e.2) empty

/-! ## What a table means -/

/-- In a sorted table the new entry is found with its device, and all other entries are found as before. -/
theorem find?_insertEntry (u w : Uuid) (a : α) :
    ∀ es : List (Uuid × α), es.Pairwise (fun a b => a.1.toNat < b.1.toNat) →
      ((insertEntry u a es).find? (·.1 = w)).map (·.2) =
        if w = u then some a else (es.find? (·.1 = w)).map (·.2)
  | [], _ => by
    by_cases h : w = u
    · simp [insertEntry, h]
    · simp [insertEntry, h, Ne.symm h]
  | (v, b) :: rest, hs => by
    unfold insertEntry
    split
    · by_cases h : w = u
      · simp [h]
      · simp [h, Ne.symm h]
    split
    · next heq =>
      subst heq
      by_cases h : w = u
      · simp [h]
      · simp [h, Ne.symm h]
    · next _ hne =>
      have ih := find?_insertEntry u w a rest (List.pairwise_cons.1 hs).2
      by_cases hv : v = w
      · subst hv
        simp [Ne.symm hne]
      · simp only [List.find?_cons, hv, decide_false, ih]

/-- The new entry is found with its device, and all others are found as before. -/
theorem find?_insert (u w : Uuid) (a : α) (t : DeviceTable α) :
    (t.insert u a).find? w = if w = u then some a else t.find? w :=
  find?_insertEntry u w a t.entries t.sorted

/-- An erased entry is not found any more, and all others are found as before. -/
theorem find?_erase (u w : Uuid) (t : DeviceTable α) :
    (t.erase u).find? w = if w = u then none else t.find? w := by
  unfold find? erase
  rw [List.find?_filter]
  by_cases h : w = u
  · subst h
    rw [if_pos rfl, Option.map_eq_none_iff, List.find?_eq_none]
    intro e _
    by_cases he : e.1 = w <;> simp [he]
  · rw [if_neg h]
    congr 2
    funext e
    by_cases he : e.1 = w
    · simp [he, h]
    · simp [he]

/-- The devices listed are those with which something is found. -/
theorem mem_devices_iff {u : Uuid} {t : DeviceTable α} : u ∈ t.devices ↔ t.find? u ≠ none := by
  unfold devices find?
  rw [Ne, Option.map_eq_none_iff, List.find?_eq_none]
  simp

/-- The devices are listed in the order of their numbers, each once. -/
theorem sorted_devices (t : DeviceTable α) : t.devices.Pairwise fun a b => a.toNat < b.toNat :=
  List.pairwise_map.2 t.sorted

end DeviceTable

end DevicePairing
