import DevicePairing.Cbor.Record

/-!
# Written records read back

What a writer writes, the matching reader reads, whatever follows it. `Reader.Yields` says this of a
reader, a written form and a value; it is closed under sequencing, so the proofs follow the writers item
by item. The result is `Row.decode?_write`: a record whose names and values are within the bounds of the
format reads back as it was written.
-/

namespace DevicePairing.Cbor

namespace Reader

variable {α β : Type}

/-- A reader takes exactly the given bytes off the front, whatever follows them, and makes the given
value of them. -/
def Yields (r : Reader α) (bs : Bytes) (a : α) : Prop := ∀ rest, r (bs ++ rest) = some (a, rest)

/-- The second reader starts where the first one has stopped. -/
theorem bind_apply (r : Reader α) (f : α → Reader β) (bs : Bytes) :
    (r >>= f) bs = (r bs).bind fun p => f p.1 p.2 := rfl

/-- Nothing has to be there for a value that is not read. -/
theorem Yields.pure (a : α) : (pure a : Reader α).Yields [] a := fun _ => rfl

/-- What two readers take stands one behind the other. -/
theorem Yields.bind {r : Reader α} {f : α → Reader β} {bs bs' : Bytes} {a : α} {b : β}
    (h : r.Yields bs a) (h' : (f a).Yields bs' b) : (r >>= f).Yields (bs ++ bs') b := by
  intro rest
  rw [bind_apply, List.append_assoc, h]
  exact h' rest

/-- A reader that is done with its first step. -/
theorem Yields.bind_pure {r : Reader α} {f : α → Reader β} {bs : Bytes} {a : α} {b : β}
    (h : r.Yields bs a) (h' : f a = Pure.pure b) : (r >>= f).Yields bs b := by
  have := h.bind (f := f) (h' ▸ Yields.pure b)
  rwa [List.append_nil] at this

/-! ## Items -/

/-- A head is read as it was written, as long as its argument fits eight bytes. -/
theorem yields_head {major n : Nat} {h : Head} (hm : major < 7) (hn : n < capacity 8)
    (hhead : Head.ofMajor? major (some n) = some h) : head.Yields (writeHead major n) h :=
  fun rest => Head.read?_write hm hn hhead rest

/-- An item that is no tag is found at once, however much nesting there is room for. -/
theorem yields_item {h : Head} {bs : Bytes} (hhead : head.Yields bs h) (htag : ∀ n, h ≠ .tag n)
    (room : Nat) : (item room).Yields bs (h, room) := by
  cases room <;>
  · unfold item
    refine hhead.bind_pure ?_
    cases h <;> first | rfl | exact absurd rfl (htag _)

/-- Bytes are read as they stand. -/
theorem yields_raw {n : Nat} {bs : Bytes} (h : bs.length = n) : (raw n).Yields bs bs :=
  fun rest => takeExactly_append rest h

/-- A number is read as it was written, if the reader takes numbers as large. -/
theorem yields_number {room max n : Nat} (hmax : n ≤ max) (hn : n < capacity 8) :
    (number room max).Yields (writeNumber n) n := by
  unfold number
  refine (yields_item (yields_head (by decide) hn rfl) (by simp) room).bind_pure ?_
  exact if_pos hmax

/-- Values one after another, in front of those read before. -/
theorem yields_timesOnto {r : Reader α} {write : β → Bytes} {value : β → α} {bs : List β}
    (h : ∀ b ∈ bs, r.Yields (write b) (value b)) (seen : List α) :
    (timesOnto r bs.length seen).Yields (bs.flatMap write) (seen.reverse ++ bs.map value) := by
  induction bs generalizing seen with
  | nil =>
    rw [List.map_nil, List.append_nil]
    exact .pure _
  | cons b bs ih =>
    have hrest := ih (fun c hc => h c (List.mem_cons_of_mem b hc)) (value b :: seen)
    rw [List.reverse_cons, List.append_assoc] at hrest
    exact (h b List.mem_cons_self).bind hrest

/-- Bytes that are written as an array of numbers are read from it. -/
theorem yields_byteArray (room : Nat) {bs : Bytes} (h : bs.length < capacity 8) :
    (byteArray (room + 1)).Yields (writeHead 4 bs.length ++ bs.flatMap fun b => writeNumber b.toNat)
      bs := by
  unfold byteArray
  refine (yields_item (yields_head (by decide) h rfl) (by simp) _).bind ?_
  have hnumbers : (timesOnto (number room 255) bs.length []).Yields
      (bs.flatMap fun b => writeNumber b.toNat) ([].reverse ++ bs.map UInt8.toNat) := by
    refine yields_timesOnto (fun b _ => yields_number ?_ ?_) []
    · have := b.toNat_lt
      omega
    · exact Nat.lt_of_lt_of_le b.toNat_lt (by decide)
  refine hnumbers.bind_pure ?_
  show Pure.pure _ = Pure.pure _
  congr 1
  rw [List.reverse_nil, List.nil_append, List.map_map]
  refine (List.map_congr_left fun b _ => ?_).trans bs.map_id
  exact UInt8.ofNat_toNat

/-! ## Names -/

/-- A name that is spelled out is read as it was written. -/
theorem yields_name {room : Nat} {s : String} (hvalid : Utf8.valid (ascii s) = true)
    (hlen : (ascii s).length < capacity 8) :
    (name room).Yields (writeText s) (.spelled (ascii s)) := by
  unfold name writeText
  refine (yields_item (yields_head (by decide) hlen rfl) (by simp) room).bind ?_
  have htext : (textOf (some (ascii s).length)).Yields (ascii s) (ascii s) := by
    unfold textOf
    exact (yields_raw rfl).bind_pure (if_pos hvalid)
  exact htext.bind_pure rfl

/-- The names in a list can be told apart and spelled out. -/
structure Legible (labels : List String) : Prop where
  /-- No two names have the same bytes. -/
  distinct : ∀ i j : Fin labels.length, ascii (labels.get i) = ascii (labels.get j) → i = j
  /-- Every name is well formed. -/
  valid : ∀ i : Fin labels.length, Utf8.valid (ascii (labels.get i)) = true
  /-- No name is too long. -/
  short : ∀ i : Fin labels.length, (ascii (labels.get i)).length < capacity 8

/-- A legible name is found at its own place in the list and at no other. -/
theorem find?_spelled {labels : List String} (h : Legible labels) (i : Fin labels.length) :
    Name.find? labels (.spelled (ascii (labels.get i))) = some i := by
  show ((List.finRange labels.length).find?
    fun j => ascii (labels.get j) = ascii (labels.get i)) = some i
  rcases hfind : (List.finRange labels.length).find?
    fun j => ascii (labels.get j) = ascii (labels.get i) with _ | j
  · have hnone := List.find?_eq_none.1 hfind i (List.mem_finRange i)
    simp at hnone
  · have hj := List.find?_some hfind
    rw [h.distinct j i (by simpa using hj)]

/-- So the place of a name is known again from the name. -/
theorem yields_oneOf {room : Nat} {labels : List String} (h : Legible labels)
    (i : Fin labels.length) : (oneOf room labels).Yields (writeText (labels.get i)) i := by
  unfold oneOf
  refine (yields_name (h.valid i) (h.short i)).bind_pure ?_
  rw [find?_spelled h i]

/-- Who looks ahead sees the first byte and leaves it. -/
theorem peek_append {bs : Bytes} {b : UInt8} (h : bs.head? = some b) (rest : Bytes) :
    peek (bs ++ rest) = some (b, bs ++ rest) := by
  unfold peek
  rw [List.head?_append, h]
  rfl

/-- The first byte of a head tells its major type. -/
theorem head?_writeHead (major n : Nat) :
    ∃ info, info < 32 ∧ (writeHead major n).head? = some (UInt8.ofNat (32 * major + info)) := by
  unfold writeHead
  split
  · next h => exact ⟨n, by omega, rfl⟩
  split
  · exact ⟨24, by decide, rfl⟩
  split
  · exact ⟨25, by decide, rfl⟩
  split
  · exact ⟨26, by decide, rfl⟩
  · exact ⟨27, by decide, rfl⟩

/-- A first byte of a major type below the fourth starts no long form of a choice. -/
theorem yields_choice {room : Nat} {labels : List String} (h : Legible labels)
    (i : Fin labels.length) : (choice room labels).Yields (writeText (labels.get i)) i := by
  intro rest
  obtain ⟨info, hinfo, hhead⟩ := head?_writeHead 3 (ascii (labels.get i)).length
  have hfirst : (writeText (labels.get i)).head? = some (UInt8.ofNat (32 * 3 + info)) := by
    unfold writeText
    rw [List.head?_append, hhead]
    rfl
  have hbyte : (UInt8.ofNat (32 * 3 + info)).toNat = 96 + info := by
    rw [UInt8.toNat_ofNat']
    omega
  unfold choice
  rw [bind_apply, peek_append hfirst]
  show (if UInt8.ofNat (32 * 3 + info) = 0xa1 then _ else _ : Reader _) _ = _
  rw [if_neg, if_neg]
  · exact yields_oneOf h i rest
  · rw [UInt8.le_iff_toNat_le, hbyte]
    simp
    omega
  · intro heq
    have := congrArg UInt8.toNat heq
    rw [hbyte] at this
    simp at this
    omega

end Reader

/-! ## Values -/

/-- A value that can be written within the bounds of the format. -/
def Kind.Fits : (k : Kind) → k.Value → Prop
  | .choice labels, _ => Reader.Legible labels
  | .optionalBlock n, _ => n < capacity 8
  | .flag, _ => True
  | .bytes, (bs : Bytes) => bs.length < capacity 8
  | .word, _ => True

/-- A value of any kind is read as it was written, if it fits what its kind has room for. -/
theorem Kind.yields_read (room : Nat) (k : Kind) (v : k.Value) (h : k.Fits v) :
    (k.read (room + 1)).Yields (k.write v) v := by
  cases k with
  | choice labels => exact Reader.yields_choice h v
  | flag =>
    intro rest
    cases v <;> rfl
  | bytes => exact Reader.yields_byteArray room h
  | word =>
    have hle : v.toNat ≤ capacity 4 - 1 := Nat.le_sub_one_of_lt v.toNat_lt
    refine (Reader.yields_number hle (Nat.lt_of_le_of_lt hle (by decide))).bind_pure ?_
    exact congrArg Pure.pure (UInt32.ofNat_toNat (x := v))
  | optionalBlock n =>
    cases v with
    | none =>
      intro rest
      rfl
    | some b =>
      have hlen : b.val.length < capacity 8 := by
        rw [b.property]
        exact h
      have hoctets : (Reader.octets (room + 1)).Yields (writeHead 2 b.val.length ++ b.val)
          b.val := by
        unfold Reader.octets
        refine (Reader.yields_item (Reader.yields_head (by decide) hlen rfl) (by simp) _).bind ?_
        exact Reader.yields_raw rfl
      intro rest
      obtain ⟨info, hinfo, hhead⟩ := Reader.head?_writeHead 2 b.val.length
      have hfirst : (writeHead 2 b.val.length ++ b.val).head? =
          some (UInt8.ofNat (32 * 2 + info)) := by
        rw [List.head?_append, hhead]
        rfl
      have hbyte : (UInt8.ofNat (32 * 2 + info)).toNat = 64 + info := by
        rw [UInt8.toNat_ofNat']
        omega
      show (Reader.peek >>= fun first => if first = 0xf6 then Reader.head >>= fun _ => pure none
        else Reader.octets (room + 1) >>= _ : Reader (Option (Block n)))
          (writeHead 2 b.val.length ++ b.val ++ rest) = _
      rw [Reader.bind_apply, Reader.peek_append hfirst]
      show (if UInt8.ofNat (32 * 2 + info) = 0xf6 then _ else _ : Reader _) _ = _
      rw [if_neg]
      · refine hoctets.bind_pure ?_ rest
        rw [Block.ofBytes?_val]
      · intro heq
        have := congrArg UInt8.toNat heq
        rw [hbyte] at this
        simp at this
        omega

/-! ## Rows -/

/-- Every value of a row can be written within the bounds of the format. -/
def Row.Fits : (cs : Columns) → Row cs → Prop
  | [], _ => True
  | (_, k) :: cs, (v, row) => k.Fits v ∧ Row.Fits cs row

/-- The written form of the value in a column. -/
def Row.valueAt : (cs : Columns) → Row cs → Nat → Bytes
  | [], _, _ => []
  | (_, k) :: _, (v, _), 0 => k.write v
  | _ :: cs, (_, row), place + 1 => valueAt cs row place

/-- A draft in which the first columns of a row are filled in. -/
def Draft.upTo : (cs : Columns) → Row cs → Nat → Draft cs
  | [], _, _ => ()
  | _ :: cs, (_, row), 0 => (none, upTo cs row 0)
  | _ :: cs, (v, row), n + 1 => (some v, upTo cs row n)

/-- A draft in which nothing is filled in is empty. -/
theorem Draft.upTo_zero : (cs : Columns) → (row : Row cs) → Draft.upTo cs row 0 = Draft.empty cs
  | [], _ => rfl
  | _ :: cs, (_, row) => congrArg (Prod.mk none) (Draft.upTo_zero cs row)

/-- A draft in which everything is filled in is complete, and it is the row. -/
theorem Draft.complete?_upTo : (cs : Columns) → (row : Row cs) →
    (Draft.upTo cs row cs.length).complete? = some row
  | [], _ => rfl
  | _ :: cs, (v, row) => by
    show (Option.some v).bind (fun v => (Draft.upTo cs row cs.length).complete?.bind fun row =>
      some (v, row)) = _
    rw [Draft.complete?_upTo cs row]
    rfl

/-- The value of the first column that is not filled in yet is read into it. -/
theorem Draft.yields_fill (room : Nat) : (cs : Columns) → (row : Row cs) → Row.Fits cs row →
    (n : Nat) → n < cs.length →
    ((Draft.upTo cs row n).fill (room + 1) n).Yields (row.valueAt cs n) (Draft.upTo cs row (n + 1))
  | [], _, _, _, hn => absurd hn (Nat.not_lt_zero _)
  | (_, k) :: _, (v, _), h, 0, _ => (k.yields_read room v h.1).bind_pure rfl
  | _ :: cs, (_, row), h, n + 1, hn =>
    (Draft.yields_fill room cs row h.2 n (Nat.lt_of_succ_lt_succ hn)).bind_pure rfl

/-- The columns of a row from a given one on, one after another. -/
def Row.writeFrom : (cs : Columns) → Row cs → Nat → Bytes
  | [], _, _ => []
  | c :: cs, row, 0 => writeColumns (c :: cs) row
  | _ :: cs, (_, row), n + 1 => writeFrom cs row n

/-- From the first column on the whole row is written. -/
theorem Row.writeFrom_zero (cs : Columns) (row : Row cs) : row.writeFrom cs 0 = row.writeColumns cs := by
  cases cs <;> rfl

/-- Behind the last column nothing is left. -/
theorem Row.writeFrom_length : (cs : Columns) → (row : Row cs) → row.writeFrom cs cs.length = []
  | [], _ => rfl
  | _ :: cs, (_, row) => Row.writeFrom_length cs row

/-- A column is written as its name and its value, and then the others follow. -/
theorem Row.writeFrom_of_lt : (cs : Columns) → (row : Row cs) → (n : Nat) →
    (hn : n < (cs.map Prod.fst).length) →
    row.writeFrom cs n = writeText (cs.map Prod.fst)[n] ++ row.valueAt cs n ++ row.writeFrom cs (n + 1)
  | [], _, _, hn => absurd hn (Nat.not_lt_zero _)
  | (name, k) :: cs, (v, row), 0, _ =>
    congrArg (writeText name ++ k.write v ++ ·) (Row.writeFrom_zero cs row).symm
  | _ :: cs, (_, row), n + 1, hn => Row.writeFrom_of_lt cs row n (Nat.lt_of_succ_lt_succ hn)

/-- An entry fills in the next column of a draft. -/
theorem Draft.yields_entry (room : Nat) {cs : Columns} (names : Reader.Legible (cs.map Prod.fst))
    {row : Row cs} (h : Row.Fits cs row) {n : Nat} (hn : n < (cs.map Prod.fst).length) :
    ((Draft.upTo cs row n).entry (room + 1)).Yields
      (writeText (cs.map Prod.fst)[n] ++ row.valueAt cs n) (Draft.upTo cs row (n + 1)) := by
  unfold Draft.entry
  refine (Reader.yields_name (names.valid ⟨n, hn⟩) (names.short ⟨n, hn⟩)).bind ?_
  rw [Reader.find?_spelled names ⟨n, hn⟩]
  exact Draft.yields_fill room cs row h n (by simpa using hn)

/-- The entries from a given column on complete the draft. -/
theorem Draft.yields_entries (room : Nat) {cs : Columns}
    (names : Reader.Legible (cs.map Prod.fst)) {row : Row cs} (h : Row.Fits cs row) (m : Nat) :
    ∀ n, n + m = cs.length → ((Draft.upTo cs row n).entries (room + 1) m).Yields
      (row.writeFrom cs n) (Draft.upTo cs row cs.length) := by
  induction m with
  | zero =>
    rintro n rfl
    rw [Nat.add_zero, Row.writeFrom_length]
    exact .pure _
  | succ m ih =>
    intro n hn
    rw [Row.writeFrom_of_lt cs row n (by rw [List.length_map]; omega)]
    exact (Draft.yields_entry room names h _).bind (ih (n + 1) (by omega))

/-- A row whose columns have legible names is read as it was written. -/
theorem Row.yields_read {cs : Columns} (names : Reader.Legible (cs.map Prod.fst))
    (hlen : cs.length < capacity 8) {row : Row cs} (h : Row.Fits cs row) :
    (Row.read cs).Yields (row.write cs) row := by
  unfold Row.read Row.write nestingLimit
  refine (Reader.yields_item (Reader.yields_head (by decide) hlen rfl) (by simp) _).bind ?_
  have hentries := Draft.yields_entries 125 names h cs.length 0 (Nat.zero_add _)
  rw [Draft.upTo_zero, Row.writeFrom_zero] at hentries
  refine hentries.bind_pure ?_
  simp only [Draft.complete?_upTo]

/-- A record that was written reads back. -/
theorem Row.decode?_write {cs : Columns} (names : Reader.Legible (cs.map Prod.fst))
    (hlen : cs.length < capacity 8) {row : Row cs} (h : Row.Fits cs row) :
    Row.decode? cs (row.write cs) = some row := by
  have hread := Row.yields_read names hlen h []
  rw [List.append_nil] at hread
  unfold Row.decode?
  rw [hread]

end DevicePairing.Cbor
