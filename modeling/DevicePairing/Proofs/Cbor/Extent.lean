import DevicePairing.Message.Version
import DevicePairing.Proofs.Cbor.Envelope

/-!
# How far a record reaches

A reader that has taken a value off the front of a byte string would have taken the same value if there had
been more bytes behind. `Reader.Steady` says so of a reader; it is closed under sequencing, so the proofs
follow the readers item by item. Even a list up to a stop mark is read the same way, whose bound on the
number of items comes from the length of the whole string: a larger bound changes nothing.

A written record is read to its last byte. So no part of it that lacks bytes at the end can be a record: it
would be found in front of the missing bytes. And with anything behind it, it is no record either. What is
found in a written form, and in none that is shorter or longer, is `Cbor.Exact`; `wire_forms_exact` says it
of envelopes and of statements of versions, with the form they are written in. Numbers are written as short as
they can be read (`Cbor.length_writeNumber_le_of_read`).
-/

namespace DevicePairing

namespace Cbor

namespace Reader

variable {α β : Type}

/-- More bytes behind do not change what a reader makes of the front. -/
def Steady (r : Reader α) : Prop :=
  ∀ bs a rest, r bs = some (a, rest) → ∀ more, r (bs ++ more) = some (a, rest ++ more)

/-! ## Steps of a reader -/

/-- To read nothing does not depend on what follows. -/
theorem Steady.pure (a : α) : (pure a : Reader α).Steady := by
  intro bs b rest h more
  cases h
  rfl

/-- Who fails at once fails whatever follows. -/
theorem Steady.failure : (failure : Reader α).Steady := by
  intro bs a rest h
  cases h

/-- Two steady readers, one after the other, are steady. -/
theorem Steady.bind {r : Reader α} {f : α → Reader β} (hr : r.Steady) (hf : ∀ a, (f a).Steady) :
    (r >>= f).Steady := by
  intro bs b rest h more
  rw [bind_apply] at h ⊢
  obtain ⟨⟨a, between⟩, hfirst, hsecond⟩ := Option.bind_eq_some_iff.1 h
  rw [hr bs a between hfirst more]
  exact hf a between b rest hsecond more

/-- A condition on what was read before. -/
theorem Steady.ite {p : Prop} [Decidable p] {r s : Reader α} (hr : r.Steady) (hs : s.Steady) :
    (if p then r else s : Reader α).Steady := by
  split
  · exact hr
  · exact hs

/-- A steady reader that is chosen without a look at the bytes is steady. -/
theorem Steady.cond {p : Prop} [Decidable p] {r s : Reader α} (hr : r.Steady) (hs : s.Steady) :
    Steady fun bs => if p then r bs else s bs := by
  by_cases h : p
  · simpa only [if_pos h] using hr
  · simpa only [if_neg h] using hs

/-- What is made of the value read does not matter. -/
theorem Steady.map {r : Reader α} (hr : r.Steady) (f : α → β) :
    Steady fun bs => (r bs).map fun p => (f p.1, p.2) := by
  intro bs b rest h more
  obtain ⟨⟨a, behind⟩, hread, hpair⟩ := Option.map_eq_some_iff.1 h
  cases hpair
  show (r (bs ++ more)).map _ = _
  rw [hr bs a behind hread more]
  rfl

/-! ## Heads -/

/-- A given number of bytes is taken as it stands, whatever stands behind it. -/
theorem steady_takeExactly (n : Nat) : Steady (takeExactly n) := by
  intro bs front rest h more
  obtain ⟨rfl, hlength⟩ := takeExactly_eq_some_iff.1 h
  rw [List.append_assoc]
  exact takeExactly_append _ hlength

/-- An argument of a given width is read from that many bytes. -/
theorem steady_readArgument (width : Nat) : Steady (readArgument width) :=
  (steady_takeExactly width).map ofBigEndian

/-- The lower five bits of a head say how many bytes its argument has. -/
theorem steady_readInfo (info : Nat) : Steady (readInfo info) :=
  have argument (width : Nat) := (steady_readArgument width).map Option.some
  .cond (.pure (some info)) <| .cond (argument 1) <| .cond (argument 2) <| .cond (argument 4) <|
    .cond (argument 8) <| .cond (.pure none) .failure

/-- A simple value is its head, and how long a floating-point number is shows in the head. -/
theorem steady_readSimple? (info : Nat) : Steady (Head.readSimple? info) :=
  have float (width : Nat) := (steady_takeExactly width).map fun _ => Head.float
  .cond (.pure (Head.flag false)) <| .cond (.pure (Head.flag true)) <| .cond (.pure Head.null) <|
    .cond (.pure Head.undefined) <| .cond (float 2) <| .cond (float 4) <| .cond (float 8) <|
    .cond (.pure Head.stop) .failure

/-- A head says itself where it ends. -/
theorem steady_head : head.Steady := by
  intro bs h rest hread more
  cases bs with
  | nil => cases hread
  | cons b bs =>
    -- the first byte alone decides how the bytes behind it are read
    have tail : Steady fun bs => if b.toNat / 32 = 7 then Head.readSimple? (b.toNat % 32) bs else
        (readInfo (b.toNat % 32) >>= fun argument =>
          match Head.ofMajor? (b.toNat / 32) argument with
          | some h => pure h
          | none => failure : Reader Head) bs := by
      refine .cond (steady_readSimple? _) ((steady_readInfo _).bind fun argument => ?_)
      split
      · exact .pure _
      · exact .failure
    have unfolded (bs : Bytes) : head (b :: bs) = if b.toNat / 32 = 7 then
        Head.readSimple? (b.toNat % 32) bs else
        (readInfo (b.toNat % 32) >>= fun argument =>
          match Head.ofMajor? (b.toNat / 32) argument with
          | some h => pure h
          | none => failure : Reader Head) bs := by
      show (if b.toNat / 32 = 7 then Head.readSimple? (b.toNat % 32) bs else
        (readInfo (b.toNat % 32) bs).bind fun p =>
          (Head.ofMajor? (b.toNat / 32) p.1).bind fun h => some (h, p.2)) = _
      rw [bind_apply]
      rcases readInfo (b.toNat % 32) bs with _ | ⟨argument, behind⟩
      · rfl
      · rcases hmajor : Head.ofMajor? (b.toNat / 32) argument with _ | h <;> simp [hmajor]
        · rfl
        · rfl
    rw [unfolded] at hread
    rw [List.cons_append, unfolded]
    exact tail bs h rest hread more

/-- The tags in front of an item are heads, of which as many are read as there is room for. -/
theorem steady_item : (room : Nat) → (item room).Steady
  | 0 => by
    unfold item
    refine steady_head.bind fun h => ?_
    split
    · exact .failure
    · exact .pure _
  | room + 1 => by
    unfold item
    refine steady_head.bind fun h => ?_
    split
    · exact steady_item room
    · exact .pure _

/-- The stop mark is one byte. -/
theorem steady_stopMark : stopMark.Steady := by
  unfold stopMark
  refine steady_head.bind fun h => ?_
  split
  · exact .pure _
  · exact .failure

/-- To look ahead is to see a byte that is there; only with none there would what follows matter. -/
theorem steady_peek : peek.Steady := by
  intro bs b rest h more
  obtain ⟨b', hfirst, hpair⟩ := Option.map_eq_some_iff.1 h
  cases hpair
  exact peek_append hfirst more

/-- Bytes of a given number are read as they stand. -/
theorem steady_raw (n : Nat) : (raw n).Steady := steady_takeExactly n

/-! ## Sequences -/

/-- A steady reader may be repeated a given number of times. -/
theorem steady_timesOnto {r : Reader α} (hr : r.Steady) :
    ∀ (n : Nat) (seen : List α), (timesOnto r n seen).Steady
  | 0, _ => .pure _
  | n + 1, seen => hr.bind fun a => steady_timesOnto hr n (a :: seen)

/-- A reader that takes one step after another up to the stop mark, at most so many. -/
structure Loop {γ : Type} (loop : Nat → γ → Reader β) (step : γ → Reader α) (grow : γ → α → γ)
    (finish : γ → Reader β) : Prop where
  /-- No step is left. -/
  zero : ∀ c, loop 0 c = failure
  /-- One step is taken, unless the stop mark comes next. -/
  succ : ∀ fuel c, loop (fuel + 1) c = do
    if (← peek) = 0xff then finish c
    else
      let a ← step c
      loop fuel (grow c a)

section Loop

variable {γ : Type} {loop : Nat → γ → Reader β} {step : γ → Reader α} {grow : γ → α → γ}
  {finish : γ → Reader β} (h : Loop loop step grow finish)

include h

/-- A loop is steady if its steps are and what it ends with is, for any fuel. -/
theorem Loop.steady (steps : ∀ c, (step c).Steady) (ends : ∀ c, (finish c).Steady) (fuel : Nat) (c : γ) :
    (loop fuel c).Steady := by
  induction fuel generalizing c with
  | zero =>
    rw [h.zero]
    exact .failure
  | succ fuel ih =>
    rw [h.succ]
    exact steady_peek.bind fun _ => .ite (ends c) ((steps c).bind fun a => ih (grow c a))

/-- What is read within a bound is read within any larger one. -/
theorem Loop.of_le {fuel fuel' : Nat} (le : fuel ≤ fuel') {c : γ} {bs : Bytes} {p : β × Bytes}
    (hread : loop fuel c bs = some p) : loop fuel' c bs = some p := by
  induction fuel generalizing fuel' c bs with
  | zero =>
    rw [h.zero] at hread
    cases hread
  | succ fuel ih =>
    obtain ⟨fuel', rfl⟩ : ∃ n, fuel' = n + 1 := ⟨fuel' - 1, by omega⟩
    rw [h.succ, bind_apply] at hread ⊢
    obtain ⟨⟨first, ahead⟩, hpeek, hthen⟩ := Option.bind_eq_some_iff.1 hread
    rw [hpeek]
    by_cases hstop : first = 0xff
    · simpa only [Option.bind_some, if_pos hstop] using hthen
    · simp only [if_neg hstop, bind_apply, Option.bind_some] at hthen ⊢
      obtain ⟨⟨a, behind⟩, hstep, hrest⟩ := Option.bind_eq_some_iff.1 hthen
      rw [hstep]
      exact ih (by omega) hrest

/-- A bound that grows with what there is to read is as good as none. -/
theorem Loop.steady_unbounded (steps : ∀ c, (step c).Steady) (ends : ∀ c, (finish c).Steady) (c : γ) :
    Steady fun bs => loop (bs.length + 1) c bs := by
  intro bs a rest hread more
  refine h.of_le ?_ (h.steady steps ends (bs.length + 1) c bs a rest hread more)
  rw [List.length_append]
  omega

end Loop

/-- A steady reader may be repeated until the stop mark. -/
theorem steady_untilStop {r : Reader α} (hr : r.Steady) : (untilStop r).Steady :=
  have loop : Loop (untilStopOnto r) (fun _ => r) (fun seen a => a :: seen)
      (fun seen => do stopMark; return seen.reverse) := ⟨fun _ => rfl, fun _ _ => rfl⟩
  loop.steady_unbounded (fun _ => hr) (fun _ => steady_stopMark.bind fun _ => .pure _) []

/-- So elements are read steadily, whether their number is given or a stop mark ends them. -/
theorem steady_elements {r : Reader α} (hr : r.Steady) (length : Option Nat) :
    (elements length r).Steady := by
  cases length with
  | none => exact steady_untilStop hr
  | some n => exact steady_timesOnto hr n []

/-! ## Strings -/

/-- A piece of a byte string has its length in its head. -/
theorem steady_octetPiece : octetPiece.Steady := by
  unfold octetPiece
  refine steady_head.bind fun h => ?_
  split
  · exact steady_raw _
  · exact .failure

/-- So has a piece of a text. -/
theorem steady_textPiece : textPiece.Steady := by
  unfold textPiece
  refine steady_head.bind fun h => ?_
  split
  · exact steady_raw _
  · exact .failure

/-- A byte string has its length in its head, or is pieces up to a stop mark. -/
theorem steady_octetsOf : (length : Option Nat) → (octetsOf length).Steady
  | some n => steady_raw n
  | none => (steady_untilStop steady_octetPiece).bind fun _ => .pure _

/-- So is a text, which is checked to be one. -/
theorem steady_textOf : (length : Option Nat) → (textOf length).Steady
  | some n => (steady_raw n).bind fun _ => .ite (.pure _) .failure
  | none => (steady_untilStop steady_textPiece).bind fun _ => (Steady.pure _).bind fun _ =>
      .ite (.pure _) .failure

/-! ## Whole items -/

/-- What is skipped is an item, and where it ends does not depend on what follows. -/
theorem steady_skip : (room : Nat) → (skip room).Steady
  | 0 => by
    unfold skip
    refine steady_head.bind fun h => ?_
    split
    · exact (steady_octetsOf _).bind fun _ => .pure _
    · exact (steady_textOf _).bind fun _ => .pure _
    all_goals first | exact .failure | exact .pure _
  | room + 1 => by
    have hskip := steady_skip room
    unfold skip
    refine steady_head.bind fun h => ?_
    split
    · exact (steady_octetsOf _).bind fun _ => .pure _
    · exact (steady_textOf _).bind fun _ => .pure _
    · exact (steady_elements hskip _).bind fun _ => .pure _
    · exact (steady_elements (hskip.bind fun _ => hskip) _).bind fun _ => .pure _
    · exact hskip
    · exact .failure
    · exact .pure _

/-- A number is a head, and whether it is too large shows in the head. -/
theorem steady_number (room max : Nat) : (number room max).Steady := by
  unfold number
  refine (steady_item room).bind fun i => ?_
  split
  · exact .ite (.pure _) .failure
  · exact .failure

/-- A truth value is a head. -/
theorem steady_flag (room : Nat) : (flag room).Steady := by
  unfold flag
  refine (steady_item room).bind fun i => ?_
  split
  · exact .pure _
  · exact .failure

/-- Nothing is a head, too. -/
theorem steady_nothing (room : Nat) : (nothing room).Steady := by
  unfold nothing
  refine (steady_item room).bind fun i => ?_
  split
  · exact .pure _
  · exact .pure _
  · exact .failure

/-- Bytes are a byte string, behind tags or not. -/
theorem steady_octets (room : Nat) : (octets room).Steady := by
  unfold octets
  refine (steady_item room).bind fun i => ?_
  split
  · exact steady_octetsOf _
  · exact .failure

/-- Bytes in an array are numbers, and the array says how many. -/
theorem steady_byteArray (room : Nat) : (byteArray room).Steady := by
  unfold byteArray
  refine (steady_item room).bind fun i => ?_
  split
  · exact (steady_elements (steady_number _ 255) _).bind fun _ => .pure _
  · exact .failure

/-- A name is spelled out or is a number. -/
theorem steady_name (room : Nat) : (name room).Steady := by
  unfold name
  refine (steady_item room).bind fun i => ?_
  split
  · exact .pure _
  · exact (steady_octetsOf _).bind fun _ => .pure _
  · exact (steady_textOf _).bind fun _ => .pure _
  · exact .failure

/-- To know a name among others does not take more bytes than the name. -/
theorem steady_oneOf (room : Nat) (labels : List String) : (oneOf room labels).Steady := by
  unfold oneOf
  refine (steady_name room).bind fun n => ?_
  split
  · exact .pure _
  · exact .failure

/-- A name with an empty content behind it. -/
theorem steady_emptied (room : Nat) (labels : List String) :
    (do let i ← oneOf room labels; nothing room; return i : Reader (Fin labels.length)).Steady :=
  (steady_oneOf room labels).bind fun _ => (steady_nothing room).bind fun _ => .pure _

/-- Which of its three forms a choice has shows in its first bytes. -/
theorem steady_choice (room : Nat) (labels : List String) : (choice room labels).Steady := by
  unfold choice
  refine steady_peek.bind fun first => .ite ?_ (.ite ?_ (steady_oneOf room labels))
  · refine steady_head.bind fun h => ?_
    split
    · exact steady_emptied _ labels
    · exact .failure
  · refine steady_head.bind fun h => ?_
    split
    · exact steady_emptied _ labels
    · exact (steady_oneOf _ labels).bind fun _ => (steady_nothing _).bind fun _ =>
        steady_stopMark.bind fun _ => .pure _
    · exact .failure

end Reader

/-! ## Records -/

open Reader in
/-- Whatever kind of value a column has, its reader is steady. -/
theorem Kind.steady_read (room : Nat) (k : Kind) : (k.read room).Steady := by
  cases k with
  | choice labels => exact steady_choice room labels
  | flag => exact steady_flag room
  | bytes => exact steady_byteArray room
  | word => exact (steady_number room _).bind fun _ => .pure _
  | optionalBlock n =>
    refine steady_peek.bind fun first => .ite (steady_head.bind fun _ => .pure _) ?_
    refine (steady_octets room).bind fun bs => ?_
    split
    · exact .pure _
    · exact .failure

/-- The columns of a row that is an array are read one after another. -/
theorem Row.steady_readColumns (room : Nat) : (cs : Columns) → (Row.readColumns room cs).Steady
  | [] => .pure _
  | (_, k) :: cs => (k.steady_read room).bind fun _ => (steady_readColumns room cs).bind fun _ => .pure _

namespace Draft

open Reader

/-- A value is read by the reader of its column, whichever column that is. -/
theorem steady_fill (room : Nat) : {cs : Columns} → (place : Nat) → (draft : Draft cs) →
    (draft.fill room place).Steady
  | [], _, _ => .failure
  | (_, k) :: _, 0, (none, _) => (k.steady_read room).bind fun _ => .pure _
  | (_, _) :: _, 0, (some _, _) => .failure
  | _ :: _, place + 1, (_, draft) => (steady_fill room place draft).bind fun _ => .pure _

/-- An entry of a map is a name with a value, or is skipped. -/
theorem steady_entry (room : Nat) {cs : Columns} (draft : Draft cs) : (draft.entry room).Steady := by
  unfold entry
  refine (steady_name room).bind fun n => ?_
  split
  · exact steady_fill room _ draft
  · exact (steady_skip room).bind fun _ => .pure _

/-- Entries are read one after another, as many as the head of the map says. -/
theorem steady_entries (room : Nat) {cs : Columns} :
    ∀ (n : Nat) (draft : Draft cs), (draft.entries room n).Steady
  | 0, _ => .pure _
  | n + 1, draft => (steady_entry room draft).bind fun draft => steady_entries room n draft

/-- Or they are read until the stop mark, for which the bytes that are there are fuel enough. -/
theorem steady_entriesUntilStop (room : Nat) {cs : Columns} (draft : Draft cs) :
    Steady fun bs => draft.entriesUntilStop room (bs.length + 1) bs :=
  have loop : Loop (fun fuel (draft : Draft cs) => draft.entriesUntilStop room fuel) (entry room)
      (fun _ draft => draft) (fun draft => do stopMark; return draft) := ⟨fun _ => rfl, fun _ _ => rfl⟩
  loop.steady_unbounded (steady_entry room) (fun _ => steady_stopMark.bind fun _ => .pure _) draft

end Draft

open Reader in
/-- Whether a row is an array or a map, where it ends does not depend on what follows. -/
theorem Row.steady_read (cs : Columns) : (Row.read cs).Steady := by
  unfold Row.read
  refine (steady_item nestingLimit).bind fun i => ?_
  split
  · exact .ite (steady_readColumns _ cs) .failure
  · exact (steady_readColumns _ cs).bind fun _ => steady_stopMark.bind fun _ => .pure _
  · next length room =>
    cases length with
    | some n =>
      refine (Draft.steady_entries room n _).bind fun draft => ?_
      dsimp only
      split
      · exact .pure _
      · exact .failure
    | none =>
      refine (Draft.steady_entriesUntilStop room _).bind fun draft => ?_
      dsimp only
      split
      · exact .pure _
      · exact .failure
  · exact .failure

/-- Bytes are a row exactly if the row is read from them and nothing is left. -/
theorem Row.decode?_eq_some_iff {cs : Columns} {bs : Bytes} {row : Row cs} :
    decode? cs bs = some row ↔ Row.read cs bs = some (row, []) := by
  unfold decode?
  split
  · next row' hread =>
    rw [hread]
    simp
  · next hother =>
    constructor
    · intro h
      cases h
    · intro h
      exact absurd h (hother row)

/-- With anything behind it a record is none any more. -/
theorem Row.decode?_append {cs : Columns} {bs more : Bytes} {row : Row cs}
    (h : decode? cs bs = some row) (hmore : more ≠ []) : decode? cs (bs ++ more) = none := by
  have hread := steady_read cs bs row [] (decode?_eq_some_iff.1 h) more
  rw [Option.eq_none_iff_forall_ne_some]
  intro row' h'
  rw [decode?_eq_some_iff.1 h', List.nil_append] at hread
  cases hread
  exact hmore rfl

/-! ## Numbers -/

/-- An argument that some of the widths can spell takes no more than that. -/
theorem length_writeHead_le_of_lt (major : Nat) {n width : Nat} (hwidth : width ∈ [1, 2, 4, 8])
    (h : n < capacity width) : (writeHead major n).length ≤ 1 + width := by
  unfold writeHead
  simp only [List.mem_cons, List.not_mem_nil, or_false] at hwidth
  rcases hwidth with rfl | rfl | rfl | rfl
  all_goals repeat' split
  all_goals first | contradiction | simp

/-- The argument of a head is never written in more bytes than it was read from. -/
theorem length_writeHead_le_of_readInfo {info n : Nat} {bs rest : Bytes} (major : Nat)
    (h : readInfo info bs = some (some n, rest)) :
    (writeHead major n).length + rest.length ≤ 1 + bs.length := by
  have hargument (width : Nat) (hwidth : width ∈ [1, 2, 4, 8])
      (h : (readArgument width bs).map (fun p => (some p.1, p.2)) = some (some n, rest)) :
      (writeHead major n).length + rest.length ≤ 1 + bs.length := by
    obtain ⟨⟨m, rest'⟩, hread, hsame⟩ := Option.map_eq_some_iff.1 h
    cases hsame
    obtain ⟨⟨front, behind⟩, htake, hpair⟩ := Option.map_eq_some_iff.1 hread
    cases hpair
    obtain ⟨rfl, hlength⟩ := takeExactly_eq_some_iff.1 htake
    have hhead := length_writeHead_le_of_lt major hwidth (hlength ▸ ofBigEndian_lt front)
    rw [List.length_append, hlength, ← Nat.add_assoc]
    exact Nat.add_le_add_right hhead behind.length
  unfold readInfo at h
  split at h
  · next small =>
    cases h
    have hhead : (writeHead major info).length = 1 := by
      unfold writeHead
      rw [if_pos small]
      rfl
    exact Nat.add_le_add_right (Nat.le_of_eq hhead) bs.length
  split at h
  · exact hargument 1 (by decide) h
  split at h
  · exact hargument 2 (by decide) h
  split at h
  · exact hargument 4 (by decide) h
  split at h
  · exact hargument 8 (by decide) h
  split at h <;> cases h

/-- A number is written in its shortest form: whatever reads as the same number is no shorter. -/
theorem length_writeNumber_le_of_read {n : Nat} {bs rest : Bytes}
    (h : Head.read? bs = some (.unsigned n, rest)) : (writeNumber n).length + rest.length ≤ bs.length := by
  rcases bs with _ | ⟨b, bs⟩
  · cases h
  unfold Head.read? at h
  dsimp only at h
  split at h
  · exfalso
    unfold Head.readSimple? at h
    repeat' split at h
    all_goals simp at h
  · obtain ⟨⟨argument, rest'⟩, hinfo, hmajor⟩ := Option.bind_eq_some_iff.1 h
    obtain ⟨head, hhead, hsame⟩ := Option.bind_eq_some_iff.1 hmajor
    cases hsame
    have hargument : argument = some n := by
      dsimp only at hhead
      unfold Head.ofMajor? at hhead
      split at hhead <;> cases hhead
      rfl
    rw [hargument] at hinfo
    rw [List.length_cons, Nat.add_comm bs.length 1]
    exact length_writeHead_le_of_readInfo 0 hinfo

/-! ## Written forms -/

/-- A map from texts to items, which are written already. -/
def writeMap (entries : List (String × Bytes)) : Bytes :=
  writeHead 5 entries.length ++ entries.flatMap fun entry => writeText entry.1 ++ entry.2

/-- A value is found in its written form, and nothing in a form that is cut short or goes on. -/
structure Exact {α : Type} (decode? : Bytes → Option α) (written : Bytes) (a : α) : Prop where
  /-- The value is found. -/
  found : decode? written = some a
  /-- Nothing is found where bytes at the end are missing. -/
  cut : ∀ front missing, written = front ++ missing → missing ≠ [] → decode? front = none
  /-- Nothing is found where bytes follow. -/
  followed : ∀ more, more ≠ [] → decode? (written ++ more) = none

/-- What is found among the records of some columns is found in no shorter and no longer form. -/
theorem Exact.of_row {α : Type} {cs : Columns} {f : Row cs → α} {written : Bytes} {a : α}
    (found : (Row.decode? cs written).map f = some a) :
    Exact (fun bs => (Row.decode? cs bs).map f) written a := by
  obtain ⟨row, hrow, _⟩ := Option.map_eq_some_iff.1 found
  refine ⟨found, ?_, fun more hmore => ?_⟩
  · rintro front missing rfl hmissing
    rcases hfront : Row.decode? cs front with _ | row'
    · rfl
    · rw [Row.decode?_append hfront hmissing] at hrow
      cases hrow
  · show (Row.decode? cs (written ++ more)).map f = none
    rw [Row.decode?_append hrow hmore]
    rfl

end Cbor

/-- An offer is read as it was written. -/
theorem VersionOffer.decode?_encode (v : VersionOffer) : decode? v.encode = some v := by
  have names : Cbor.Reader.Legible (columns.map Prod.fst) :=
    ⟨by decide +kernel, by decide +kernel, by decide +kernel⟩
  unfold decode? encode
  rw [Cbor.Row.decode?_write names (by decide) ⟨trivial, trivial, trivial, trivial, trivial⟩]
  exact congrArg some (ofRow_toRow v)

/-- An envelope is a map with text keys, and the payload in it an array of numbers. -/
theorem Envelope.encode_eq (m : DeviceMessage) (op : Operation) :
    encode m op = Cbor.writeMap
      [("operation", Cbor.writeText op.name),
       ("recipient", match m.recipient with
        | none => [0xf6]
        | some device => Cbor.writeHead 2 16 ++ device.toBytes),
       ("is_payload_encrypted", [if m.encrypted then 0xf5 else 0xf4]),
       ("payload", Cbor.writeHead 4 m.payload.length ++
        m.payload.flatMap fun b => Cbor.writeNumber b.toNat)] := by
  obtain ⟨_ | device, encrypted, payload⟩ := m
  · simp [encode, Cbor.Row.write, Cbor.Row.writeColumns, Cbor.writeMap, toRow, columns, Cbor.Kind.write,
      Operation.name]
  · simp [encode, Cbor.Row.write, Cbor.Row.writeColumns, Cbor.writeMap, toRow, columns, Cbor.Kind.write,
      Operation.name, Uuid.toBytes, device.octets.property]

/-- A statement of versions is a map with text keys and four numbers. -/
theorem VersionOffer.encode_eq (v : VersionOffer) :
    v.encode = Cbor.writeMap
      [("min_messaging_version", Cbor.writeNumber v.minMessaging.toNat),
       ("max_messaging_version", Cbor.writeNumber v.maxMessaging.toNat),
       ("min_security_version", Cbor.writeNumber v.minSecurity.toNat),
       ("max_security_version", Cbor.writeNumber v.maxSecurity.toNat)] := by
  simp [encode, Cbor.Row.write, Cbor.Row.writeColumns, Cbor.writeMap, toRow, columns, Cbor.Kind.write]

/-- What goes over the wire as a record is found again exactly as it was, and not in a form that is cut short
or goes on: every message in its envelope, together with what it is for, whose payload can be counted in
eight bytes, and every statement of versions. Both are maps with text keys, a payload is an array of numbers,
and nothing shorter than a written number reads as that number. -/
theorem wire_forms_exact :
    (∀ (m : DeviceMessage) (op : Operation), m.payload.length < capacity 8 →
      Cbor.Exact Envelope.decode? (Envelope.encode m op) (m, op)) ∧
    (∀ v : VersionOffer, Cbor.Exact VersionOffer.decode? v.encode v) ∧
    (∀ (m : DeviceMessage) (op : Operation), Envelope.encode m op = Cbor.writeMap
      [("operation", Cbor.writeText op.name),
       ("recipient", match m.recipient with
        | none => [0xf6]
        | some device => Cbor.writeHead 2 16 ++ device.toBytes),
       ("is_payload_encrypted", [if m.encrypted then 0xf5 else 0xf4]),
       ("payload", Cbor.writeHead 4 m.payload.length ++
        m.payload.flatMap fun b => Cbor.writeNumber b.toNat)]) ∧
    (∀ v : VersionOffer, v.encode = Cbor.writeMap
      [("min_messaging_version", Cbor.writeNumber v.minMessaging.toNat),
       ("max_messaging_version", Cbor.writeNumber v.maxMessaging.toNat),
       ("min_security_version", Cbor.writeNumber v.minSecurity.toNat),
       ("max_security_version", Cbor.writeNumber v.maxSecurity.toNat)]) ∧
    ∀ (n : Nat) (bs rest : Bytes), Cbor.Head.read? bs = some (.unsigned n, rest) →
      (Cbor.writeNumber n).length + rest.length ≤ bs.length := by
  refine ⟨fun m op short => ?_, fun v => ?_, Envelope.encode_eq, VersionOffer.encode_eq, fun n bs rest read => ?_⟩
  · exact .of_row (Envelope.decode?_encode op short)
  · exact .of_row (VersionOffer.decode?_encode v)
  · exact Cbor.length_writeNumber_le_of_read read

/-- A message for a device whose payload is long: the count of its bytes takes two bytes, and so does each of
them. -/
def longMessage : DeviceMessage := ⟨some ⟨⟨List.replicate 16 8, rfl⟩⟩, true, List.replicate 300 0xff⟩

/-- Its envelope is read to the last byte. -/
theorem wire_form_of_longMessage :
    longMessage.payload.length < capacity 8 ∧
    Cbor.Exact Envelope.decode? (Envelope.encode longMessage .client) (longMessage, .client) := by
  have hshort : longMessage.payload.length < capacity 8 := by
    show (List.replicate 300 (0xff : UInt8)).length < capacity 8
    rw [List.length_replicate]
    decide
  exact ⟨hshort, wire_forms_exact.1 longMessage .client hshort⟩

end DevicePairing
