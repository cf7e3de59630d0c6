import DevicePairing.Proofs.Json.RoundTrip

/-!
# What is asked of written values

Values are built from numbers, bytes, texts and fields, and asked for them again after they were read. Each
question gives back what the value was built from: `Json.nat?_ofNat`, `Json.bytes?_ofBytes`,
`Json.chars?_ofString`, and `Json.fields?_ofFields` for records, in which a field that is missing is answered as
missing. The values built this way are also the ones that are read as they were written (`Json.Plain`).
-/

namespace DevicePairing.Json

/-- Every element is answered if each of them is. -/
theorem mapM_eq_some {α β : Type} {f : α → Option β} {k : α → β} {as : List α}
    (h : ∀ a ∈ as, f a = some (k a)) : as.mapM f = some (as.map k) := by
  induction as with
  | nil => rfl
  | cons a as ih =>
    obtain ⟨ha, has⟩ := List.forall_mem_cons.1 h
    rw [List.mapM_cons, ha, ih has]
    rfl

/-! ## Numbers, bytes and texts -/

/-- The digits of a number have its value. -/
theorem digitsValue_toDigits (n : Nat) : digitsValue (Nat.toDigits 10 n) = n :=
  Nat.ofDigitChars_eq_foldl.symm.trans (Nat.ofDigitChars_toDigits (by decide) (by decide))

/-- A number is given back, if it is below the bound that is asked for. -/
theorem nat?_ofNat {n bound : Nat} (below : n < bound) : (ofNat n).nat? bound = some n := by
  have hdigits : (Nat.toDigits 10 n).all Char.isDigit = true :=
    List.all_eq_true.2 fun _ hc => Nat.isDigit_of_mem_toDigits (by decide) (by decide) hc
  unfold ofNat nat?
  simp only [digitsValue_toDigits]
  rw [if_pos ⟨Nat.toDigits_ne_nil, hdigits, below⟩]

/-- Bytes are given back. -/
theorem bytes?_ofBytes (bs : Bytes) : (ofBytes bs).bytes? = some bs := by
  show (bs.map fun b => ofNat b.toNat).mapM (fun v => (v.nat? 256).map UInt8.ofNat) = some bs
  rw [List.mapM_map, mapM_eq_some (k := id), List.map_id]
  intro b _
  show ((ofNat b.toNat).nat? 256).map UInt8.ofNat = some b
  rw [nat?_ofNat b.toNat_lt, Option.map_some, UInt8.ofNat_toNat]

/-- The characters of a text are given back. -/
theorem chars?_ofString (s : String) : (ofString s).chars? = some s.toList :=
  TextUnit.spell?_map_char s.toList

/-! ## Records -/

/-- A name that occurs once at most picks out its field. -/
theorem filter_name {fields : List (String × Json)} (nodup : (fields.map Prod.fst).Nodup) (name : String) :
    (fields.map fun f => (f.1.toList, f.2)).filter (fun m => m.1 = name.toList) =
      ((fields.find? (·.1 = name)).map fun f => (f.1.toList, f.2)).toList := by
  induction fields with
  | nil => rfl
  | cons f fields ih =>
    obtain ⟨hnew, hrest⟩ := List.nodup_cons.1 nodup
    rw [List.map_cons, List.filter_cons, List.find?_cons]
    by_cases hname : f.1 = name
    · have hnone : fields.find? (·.1 = name) = none := by
        refine List.find?_eq_none.2 fun g hg hgname => hnew ?_
        rw [hname, ← of_decide_eq_true hgname]
        exact List.mem_map_of_mem hg
      rw [ih hrest, hnone]
      simp [hname]
    · have hchars : f.1.toList ≠ name.toList := fun h => hname (String.toList_inj.1 h)
      rw [ih hrest]
      simp [hname, hchars]

/-- A record is asked for some names, in any order: each has the value that it was given, or none. -/
theorem fields?_ofFields (names : List String) {fields : List (String × Json)}
    (nodup : (fields.map Prod.fst).Nodup) :
    (ofFields fields).fields? names =
      some (names.map fun name => (fields.find? (·.1 = name)).map Prod.snd) := by
  have hspelled : (fields.map fun f => (f.1.toList.map TextUnit.char, f.2)).mapM
      (fun m => (TextUnit.spell? m.1).map fun cs => (cs, m.2)) =
        some (fields.map fun f => (f.1.toList, f.2)) := by
    rw [List.mapM_map]
    refine mapM_eq_some fun f _ => ?_
    show (TextUnit.spell? (f.1.toList.map .char)).map _ = _
    rw [TextUnit.spell?_map_char]
    rfl
  show lookup? names (fields.map fun f => (f.1.toList.map TextUnit.char, f.2)) = _
  unfold lookup?
  rw [hspelled]
  refine mapM_eq_some fun name _ => ?_
  rw [filter_name nodup]
  cases fields.find? (·.1 = name) <;> rfl

/-! ## What is written so is read so -/

/-- A text of printable characters is plain. -/
theorem plain_ofString {s : String} (printable : ∀ c ∈ s.toList, 0x20 ≤ c.toNat) :
    (ofString s).Plain := by
  refine .text fun u hu => ?_
  obtain ⟨c, hc, rfl⟩ := List.mem_map.1 hu
  exact ⟨c, rfl, printable c hc⟩

/-- Bytes are written as a plain value. -/
theorem plain_ofBytes (bs : Bytes) : (ofBytes bs).Plain := by
  refine .array fun v hv => ?_
  obtain ⟨b, _, rfl⟩ := List.mem_map.1 hv
  exact .number b.toNat

/-- Plain values under printable names make a plain record. -/
theorem plain_ofFields {fields : List (String × Json)}
    (printable : ∀ f ∈ fields, ∀ c ∈ f.1.toList, 0x20 ≤ c.toNat)
    (plain : ∀ f ∈ fields, f.2.Plain) : (ofFields fields).Plain := by
  refine .object (fun m hm u hu => ?_) fun m hm => ?_
  · obtain ⟨f, hf, rfl⟩ := List.mem_map.1 hm
    obtain ⟨c, hc, rfl⟩ := List.mem_map.1 hu
    exact ⟨c, rfl, printable f hf c hc⟩
  · obtain ⟨f, hf, rfl⟩ := List.mem_map.1 hm
    exact plain f hf

end DevicePairing.Json
