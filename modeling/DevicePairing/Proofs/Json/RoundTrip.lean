import DevicePairing.Json.Reader
import DevicePairing.Json.Writer
import Mathlib.Data.List.Basic
import Mathlib.Data.Nat.Basic

/-!
# Reading undoes writing

What is written of a JSON value is read back as that value (`Json.parse?_pretty`), if its numbers are natural
numbers and its texts need no escape by number: `Json.Plain`. All that this library writes is of this kind.

A reader is handed a text of which it is to take only the front. So each part of it is set against what it
is followed by: a text ends at its quote whatever follows, a number only before something that cannot
continue it (`Json.Ends`), and a value may be followed by what stands behind a value in a list, in an object
or at the end. The count of steps is paid for by the length of what is written (`Json.Reads`).
-/

namespace DevicePairing

/-- A character that needs no escape by number. -/
def TextUnit.Plain (u : TextUnit) : Prop := ∃ c : Char, u = .char c ∧ 0x20 ≤ c.toNat

namespace Json

variable {ws cs rest : List Char}

/-! ## White space -/

/-- White space. -/
def IsBlank (c : Char) : Prop := c = ' ' ∨ c = '\n' ∨ c = '\t' ∨ c = '\r'

instance (c : Char) : Decidable (IsBlank c) := inferInstanceAs (Decidable (_ ∨ _))

/-- White space in front is passed over, however much there is. -/
theorem afterSpace_append (blank : ∀ c ∈ ws, IsBlank c) (cs : List Char) :
    afterSpace (ws ++ cs) = afterSpace cs := by
  induction ws with
  | nil => rfl
  | cons c ws ih =>
    obtain ⟨hc, hws⟩ := List.forall_mem_cons.1 blank
    rw [List.cons_append, afterSpace]
    exact (if_pos hc).trans (ih hws)

/-- At anything else the text begins. -/
theorem afterSpace_cons {c : Char} (solid : ¬ IsBlank c) (cs : List Char) :
    afterSpace (c :: cs) = c :: cs := by
  rw [afterSpace]
  exact if_neg solid

/-- A layout that puts nothing but white space between tokens. -/
structure Layout.Spaced (l : Layout) : Prop where
  /-- Before elements and closing brackets. -/
  newline : ∀ depth, ∀ c ∈ l.newline depth, IsBlank c
  /-- Behind the colon. -/
  colon : ∃ ws, l.colon = ':' :: ws ∧ ∀ c ∈ ws, IsBlank c

/-- The layout with line breaks puts nothing but white space between tokens. -/
theorem spaced_pretty : Layout.pretty.Spaced where
  newline depth := by
    refine List.forall_mem_cons.2 ⟨.inr (.inl rfl), fun c hc => .inl ?_⟩
    exact List.eq_of_mem_replicate hc
  colon := ⟨[' '], rfl, fun _ hc => .inl (List.mem_singleton.1 hc)⟩

/-! ## Texts -/

/-- A plain unit of a text is read as it was written, and the text goes on behind it. -/
theorem readText_writeUnit {u : TextUnit} (plain : u.Plain) (cs : List Char) :
    readText (writeUnit u ++ cs) = (readText cs).map fun p => (u :: p.1, p.2) := by
  obtain ⟨c, rfl, hc⟩ := plain
  have hcontrol : ∀ d : Char, d.toNat < 0x20 → c ≠ d := fun d hd h => by
    subst h
    omega
  show readText (writeChar c ++ cs) = _
  by_cases hquote : c = '"'
  · subst hquote
    cases hread : readText cs <;> simp [writeChar, readText, escaped?, hread]
  by_cases hslash : c = '\\'
  · subst hslash
    cases hread : readText cs <;> simp [writeChar, readText, escaped?, hread]
  have hwritten : writeChar c = [c] := by
    unfold writeChar
    rw [if_neg hquote, if_neg hslash, if_neg (hcontrol _ (by decide)), if_neg (hcontrol _ (by decide)),
      if_neg (hcontrol _ (by decide)), if_neg (hcontrol _ (by decide)), if_neg (hcontrol _ (by decide)),
      if_neg (Nat.not_lt.2 hc)]
  rw [hwritten, List.singleton_append, readText, if_neg (not_or.2 ⟨hslash, Nat.not_lt.2 hc⟩)]
  · cases readText cs <;> rfl
  · exact hquote
  · exact fun _ _ _ _ _ h _ => hslash h
  · exact fun _ _ h _ => hslash h

/-- A plain text is read up to its quote. -/
theorem readText_writeText {us : List TextUnit} (plain : ∀ u ∈ us, u.Plain) (rest : List Char) :
    readText (us.flatMap writeUnit ++ '"' :: rest) = some (us, rest) := by
  induction us with
  | nil => rfl
  | cons u us ih =>
    obtain ⟨hu, hus⟩ := List.forall_mem_cons.1 plain
    rw [List.flatMap_cons, List.append_assoc, readText_writeUnit hu, ih hus]
    rfl

/-! ## Numbers -/

/-- What cannot continue a number. -/
def Ends (cs : List Char) : Prop :=
  ∀ c ∈ cs.head?, c.isDigit = false ∧ c ≠ '.' ∧ c ≠ 'e' ∧ c ≠ 'E'

/-- Digits are taken up to what cannot continue them. -/
theorem spanDigits_append {ds : List Char} (digits : ∀ c ∈ ds, c.isDigit = true) (ends : Ends rest) :
    spanDigits (ds ++ rest) = (ds, rest) := by
  induction ds with
  | nil =>
    cases rest with
    | nil => rfl
    | cons c cs =>
      rw [List.nil_append, spanDigits, (ends c rfl).1]
      rfl
  | cons c ds ih =>
    obtain ⟨hc, hds⟩ := List.forall_mem_cons.1 digits
    rw [List.cons_append, spanDigits, if_pos hc, ih hds]

/-- The first digit of a positive number is not zero. -/
theorem toDigits_of_pos {n : Nat} (pos : 0 < n) : ∃ c ds, Nat.toDigits 10 n = c :: ds ∧ c ≠ '0' := by
  induction n using Nat.strong_induction_on with
  | _ n ih =>
    by_cases hsmall : n < 10
    · have hdigit : ∀ d < 10, 0 < d → Nat.digitChar d ≠ '0' := by decide
      exact ⟨_, [], Nat.toDigits_of_lt_base hsmall, hdigit n hsmall pos⟩
    · obtain ⟨c, ds, hdigits, hc⟩ := ih (n / 10) (by omega) (by omega)
      rw [Nat.toDigits_of_base_le (by decide) (by omega), hdigits]
      exact ⟨c, _, rfl, hc⟩

/-- The whole part of a natural number is all its digits, since none but zero begins with a zero. -/
theorem readWhole_toDigits (n : Nat) (ends : Ends rest) :
    readWhole (Nat.toDigits 10 n ++ rest) = some (Nat.toDigits 10 n, rest) := by
  have hspan := spanDigits_append
    (fun c hc => Nat.isDigit_of_mem_toDigits (b := 10) (n := n) (by decide) (by decide) hc) ends
  rcases Nat.eq_zero_or_pos n with rfl | hpos
  · rfl
  · obtain ⟨c, ds, hdigits, hc⟩ := toDigits_of_pos hpos
    rw [hdigits] at hspan ⊢
    unfold readWhole
    split
    · next h => exact absurd (List.cons.inj h).1 hc
    · rw [hspan]

/-- Before what cannot continue a number there is no fraction. -/
theorem readFraction_of_ends (ends : Ends rest) : readFraction rest = some ([], rest) := by
  unfold readFraction
  split
  · next cs => exact absurd rfl (ends '.' rfl).2.1
  · rfl

/-- There is no exponent either. -/
theorem readExponent_of_ends (ends : Ends rest) : readExponent rest = some ([], rest) := by
  unfold readExponent
  split
  · next e cs =>
    obtain ⟨-, -, hlower, hupper⟩ := ends e rfl
    rw [if_neg (not_or.2 ⟨hlower, hupper⟩)]
  · rfl

/-- What a number is written with begins with a digit. -/
theorem isDigit_of_toDigits {n : Nat} {c : Char} {ds : List Char} (h : Nat.toDigits 10 n = c :: ds) :
    c.isDigit = true :=
  Nat.isDigit_of_mem_toDigits (b := 10) (n := n) (by decide) (by decide) (h ▸ List.mem_cons_self)

/-- A natural number is read as it was written. -/
theorem readNumber_toDigits (n : Nat) (ends : Ends rest) :
    readNumber (Nat.toDigits 10 n ++ rest) = some (Nat.toDigits 10 n, rest) := by
  have hwhole := readWhole_toDigits n ends
  obtain ⟨c, ds, hdigits⟩ := List.exists_cons_of_ne_nil (Nat.toDigits_ne_nil (n := n) (b := 10))
  have hdigit := isDigit_of_toDigits hdigits
  have hsign : c ≠ '-' := by
    rintro rfl
    exact absurd hdigit (by decide)
  rw [hdigits, List.cons_append] at hwhole ⊢
  unfold readNumber
  simp [hsign, hwhole, readFraction_of_ends ends, readExponent_of_ends ends]

/-! ## Values -/

/-- A value whose numbers are natural and whose texts need no escape by number. -/
inductive Plain : Json → Prop where
  /-- The null value. -/
  | null : Plain .null
  /-- A truth value. -/
  | bool (b : Bool) : Plain (.bool b)
  /-- A natural number. -/
  | number (n : Nat) : Plain (.ofNat n)
  /-- A text. -/
  | text {us : List TextUnit} (units : ∀ u ∈ us, u.Plain) : Plain (.text us)
  /-- A list of such values. -/
  | array {vs : List Json} (items : ∀ v ∈ vs, Plain v) : Plain (.array vs)
  /-- An object with such names and such values. -/
  | object {ms : List (List TextUnit × Json)} (names : ∀ m ∈ ms, ∀ u ∈ m.1, u.Plain)
    (values : ∀ m ∈ ms, Plain m.2) : Plain (.object ms)

/-- A value is read back from what is written of it, before anything that cannot continue a number, if there
are as many steps as there are characters. -/
def Reads (l : Layout) (v : Json) : Prop :=
  ∀ depth fuel rest, (write l depth v).length ≤ fuel → Ends rest →
    readValue fuel (write l depth v ++ rest) = some (v, rest)

/-- White space in front of a value is passed over. -/
theorem readValue_append (blank : ∀ c ∈ ws, IsBlank c) (fuel : Nat) (cs : List Char) :
    readValue fuel (ws ++ cs) = readValue fuel cs := by
  cases fuel with
  | zero => rfl
  | succ fuel => rw [readValue, readValue, afterSpace_append blank]

/-- A number is not continued by what separates or closes. -/
theorem ends_cons {c : Char} (closes : c = ',' ∨ c = ']' ∨ c = '}') (cs : List Char) : Ends (c :: cs) := by
  intro d hd
  cases hd
  rcases closes with rfl | rfl | rfl <;> decide

/-- Nor with white space before it. -/
theorem ends_append (blank : ∀ c ∈ ws, IsBlank c) {c : Char} (closes : c = ',' ∨ c = ']' ∨ c = '}')
    (cs : List Char) : Ends (ws ++ c :: cs) := by
  cases ws with
  | nil => exact ends_cons closes cs
  | cons w ws =>
    intro d hd
    cases hd
    rcases (List.forall_mem_cons.1 blank).1 with rfl | rfl | rfl | rfl <;> decide

variable {l : Layout}

/-- The values of a list, and its closing bracket. -/
theorem readItems_write (spaced : l.Spaced) (depth fuel : Nat) {v : Json} {vs : List Json}
    (reads : ∀ w ∈ v :: vs, Reads l w) (rest : List Char)
    (enough : (write l (depth + 1) v).length + (writeItems l depth vs).length < fuel) :
    readItems fuel (l.newline (depth + 1) ++ (write l (depth + 1) v ++ (writeItems l depth vs ++
      (l.newline depth ++ ']' :: rest)))) = some (v :: vs, rest) := by
  induction vs generalizing v fuel with
  | nil =>
    obtain ⟨fuel, rfl⟩ := Nat.exists_eq_add_one_of_ne_zero (Nat.ne_zero_of_lt enough)
    have hvalue := reads v List.mem_cons_self (depth + 1) fuel (l.newline depth ++ ']' :: rest) (by omega)
      (ends_append (spaced.newline depth) (.inr (.inl rfl)) rest)
    simp [readItems, writeItems, readValue_append (spaced.newline _), hvalue,
      afterSpace_append (spaced.newline _), afterSpace_cons (c := ']') (by decide)]
  | cons w vs ih =>
    obtain ⟨fuel, rfl⟩ := Nat.exists_eq_add_one_of_ne_zero (Nat.ne_zero_of_lt enough)
    simp only [writeItems, List.length_cons, List.length_append] at enough
    have hitems := ih fuel (List.forall_mem_of_forall_mem_cons reads) (by omega)
    have hvalue := reads v List.mem_cons_self (depth + 1) fuel (',' :: (l.newline (depth + 1) ++
      (write l (depth + 1) w ++ (writeItems l depth vs ++ (l.newline depth ++ ']' :: rest))))) (by omega)
      (ends_cons (.inl rfl) _)
    simp [readItems, writeItems, readValue_append (spaced.newline _), hvalue,
      afterSpace_cons (c := ',') (by decide), hitems]

/-- A name with its value, up to what stands behind them. -/
theorem readMembers_member (spaced : l.Spaced) {depth fuel : Nat} {m : List TextUnit × Json}
    (name : ∀ u ∈ m.1, u.Plain) (reads : Reads l m.2)
    (enough : (writeMember l depth m).length ≤ fuel) (ends : Ends cs) :
    readMembers (fuel + 1) (l.newline (depth + 1) ++ (writeMember l depth m ++ cs)) =
      (match afterSpace cs with
      | ',' :: cs => do
        let (ms, cs) ← readMembers fuel cs
        return (m :: ms, cs)
      | '}' :: cs => return ([m], cs)
      | _ => none) := by
  obtain ⟨ws, hcolon, hblank⟩ := spaced.colon
  obtain ⟨name', v⟩ := m
  simp only [writeMember, writeText, List.length_append] at enough
  have hname := readText_writeText name (l.colon ++ write l (depth + 1) v ++ cs)
  have hvalue := reads (depth + 1) fuel cs (by dsimp only; omega) ends
  dsimp only at hname hvalue
  rw [hcolon] at hname
  simp only [writeMember, writeText, readMembers, afterSpace_append (spaced.newline _), List.cons_append,
    List.append_assoc, List.nil_append, afterSpace_cons (c := '"') (by decide), hcolon] at hname ⊢
  rw [hname]
  simp only [Option.bind_eq_bind, Option.bind_some, afterSpace_cons (c := ':') (by decide),
    readValue_append hblank]
  rewrite [hvalue]
  rfl

/-- The members of an object, and its closing brace. -/
theorem readMembers_write (spaced : l.Spaced) (depth fuel : Nat) {m : List TextUnit × Json}
    {ms : List (List TextUnit × Json)} (names : ∀ m' ∈ m :: ms, ∀ u ∈ m'.1, u.Plain)
    (reads : ∀ m' ∈ m :: ms, Reads l m'.2) (rest : List Char)
    (enough : (writeMember l depth m).length + (writeMembers l depth ms).length < fuel) :
    readMembers fuel (l.newline (depth + 1) ++ (writeMember l depth m ++ (writeMembers l depth ms ++
      (l.newline depth ++ '}' :: rest)))) = some (m :: ms, rest) := by
  induction ms generalizing m fuel with
  | nil =>
    obtain ⟨fuel, rfl⟩ := Nat.exists_eq_add_one_of_ne_zero (Nat.ne_zero_of_lt enough)
    rw [readMembers_member spaced (names m List.mem_cons_self) (reads m List.mem_cons_self) (by omega)]
    · simp [writeMembers, afterSpace_append (spaced.newline _), afterSpace_cons (c := '}') (by decide)]
    · exact ends_append (spaced.newline depth) (.inr (.inr rfl)) rest
  | cons m' ms ih =>
    obtain ⟨fuel, rfl⟩ := Nat.exists_eq_add_one_of_ne_zero (Nat.ne_zero_of_lt enough)
    simp only [writeMembers, List.length_cons, List.length_append] at enough
    have hmembers := ih fuel (List.forall_mem_of_forall_mem_cons names)
      (List.forall_mem_of_forall_mem_cons reads) (by omega)
    rw [readMembers_member spaced (names m List.mem_cons_self) (reads m List.mem_cons_self) (by omega)]
    · simp [writeMembers, afterSpace_cons (c := ',') (by decide), hmembers]
    · exact ends_cons (.inl rfl) _

/-- What is written of a value starts with neither white space nor a closing bracket. -/
theorem write_eq_cons {v : Json} (plain : v.Plain) (l : Layout) (depth : Nat) :
    ∃ c cs, write l depth v = c :: cs ∧ ¬ IsBlank c ∧ c ≠ ']' := by
  cases plain with
  | null => exact ⟨_, _, rfl, by decide⟩
  | bool b => cases b <;> exact ⟨_, _, rfl, by decide⟩
  | number n =>
    obtain ⟨c, ds, hdigits⟩ := List.exists_cons_of_ne_nil (Nat.toDigits_ne_nil (n := n) (b := 10))
    have hdigit := isDigit_of_toDigits hdigits
    refine ⟨c, ds, hdigits, ?_, ?_⟩
    · rintro (rfl | rfl | rfl | rfl) <;> exact absurd hdigit (by decide)
    · rintro rfl
      exact absurd hdigit (by decide)
  | text _ => exact ⟨_, _, rfl, by decide⟩
  | @array vs _ => cases vs <;> exact ⟨_, _, rfl, by decide⟩
  | @object ms _ _ => cases ms <;> exact ⟨_, _, rfl, by decide⟩

/-- Something is written of every value, so there is a step to take. -/
theorem Reads.of_step {v : Json} (plain : v.Plain)
    (step : ∀ depth fuel rest, (write l depth v).length ≤ fuel + 1 → Ends rest →
      readValue (fuel + 1) (write l depth v ++ rest) = some (v, rest)) : Reads l v := by
  intro depth fuel rest enough ends
  obtain ⟨c, cs, hwrite, -⟩ := write_eq_cons plain l depth
  cases fuel with
  | zero =>
    rw [hwrite, List.length_cons] at enough
    omega
  | succ fuel => exact step depth fuel rest enough ends

/-- What begins with a digit is a number. -/
theorem readValue_digit {c : Char} (digit : c.isDigit = true) (fuel : Nat) (cs : List Char) :
    readValue (fuel + 1) (c :: cs) = (readNumber (c :: cs)).map fun p => (.number p.1, p.2) := by
  have hother (d : Char) (h : d.isDigit = false) : c ≠ d := by
    rintro rfl
    exact Bool.false_ne_true (h.symm.trans digit)
  have hsolid : ¬ IsBlank c := by
    rintro (h | h | h | h) <;> exact hother _ (by decide) h
  rw [readValue, afterSpace_cons hsolid]
  split
  case h_7 => rfl
  all_goals exact absurd (List.cons.inj ‹_›).1 (hother _ (by decide))

/-- Every plain value is read back, in any layout of this kind. -/
theorem Plain.reads {v : Json} (plain : v.Plain) (spaced : l.Spaced) : Reads l v := by
  refine .of_step plain ?_
  induction plain with
  | null =>
    intro depth fuel rest _ _
    simp [write, readValue, afterSpace_cons (c := 'n') (by decide)]
  | bool b =>
    intro depth fuel rest _ _
    cases b
    · simp [write, readValue, afterSpace_cons (c := 'f') (by decide)]
    · simp [write, readValue, afterSpace_cons (c := 't') (by decide)]
  | number n =>
    intro depth fuel rest _ ends
    have hnumber := readNumber_toDigits n ends
    obtain ⟨c, ds, hdigits⟩ := List.exists_cons_of_ne_nil (Nat.toDigits_ne_nil (n := n) (b := 10))
    show readValue (fuel + 1) (Nat.toDigits 10 n ++ rest) = some (.number (Nat.toDigits 10 n), rest)
    rw [hdigits, List.cons_append] at hnumber ⊢
    rw [readValue_digit (isDigit_of_toDigits hdigits), hnumber]
    rfl
  | text units =>
    intro depth fuel rest _ _
    simp [write, writeText, readValue, afterSpace_cons (c := '"') (by decide), readText_writeText units]
  | @array vs items ih =>
    intro depth fuel rest enough _
    cases vs with
    | nil =>
      simp [write, readValue, afterSpace_cons (c := '[') (by decide), afterSpace_cons (c := ']') (by decide)]
    | cons v vs =>
      simp only [write, List.length_cons, List.length_append] at enough
      have hitems := readItems_write spaced depth fuel (fun w hw => .of_step (items w hw) (ih w hw)) rest
        (by omega)
      obtain ⟨c, cs, hwrite, hsolid, hc⟩ := write_eq_cons (items v List.mem_cons_self) l (depth + 1)
      simp only [write, List.cons_append, List.append_assoc, List.nil_append, readValue,
        afterSpace_cons (c := '[') (by decide), hitems]
      rw [afterSpace_append (spaced.newline _), hwrite, List.cons_append, afterSpace_cons hsolid]
      split
      · exact absurd (List.cons.inj ‹_›).1 hc
      · rfl
  | @object ms names values ih =>
    intro depth fuel rest enough _
    cases ms with
    | nil =>
      simp [write, readValue, afterSpace_cons (c := '{') (by decide), afterSpace_cons (c := '}') (by decide)]
    | cons m ms =>
      simp only [write, List.length_cons, List.length_append] at enough
      have hmembers := readMembers_write spaced depth fuel names
        (fun m' hm' => .of_step (values m' hm') (ih m' hm')) rest (by omega)
      simp only [write, List.cons_append, List.append_assoc, List.nil_append, readValue,
        afterSpace_cons (c := '{') (by decide), hmembers]
      obtain ⟨name, v⟩ := m
      simp [afterSpace_append (spaced.newline _), writeMember, writeText,
        afterSpace_cons (c := '"') (by decide)]

/-- What is written of a value, with one element a line, reads as that value. -/
theorem parse?_pretty {v : Json} (plain : v.Plain) : parse? v.pretty = some v := by
  have hread := plain.reads spaced_pretty 0 (2 * (write .pretty 0 v).length + 2) [] (by omega)
    (fun _ h => nomatch h)
  rw [List.append_nil] at hread
  unfold parse? pretty
  simp [hread, afterSpace]

end Json

end DevicePairing
