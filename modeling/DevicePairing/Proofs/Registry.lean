import DevicePairing.Registry
import Mathlib.Data.List.Induction

/-!
# Registries and the walks over them

Observers may do anything to the registry they are in while a walk over it is under way: join, leave, throw
everybody out, start walks of their own to any depth. `Script.conforms_run` says that all this comes to one plain
sequence of calls, the one in the log.

That the log is of this script, and of nothing else, is `Script.Follows`: each call of the script has its entry, in
order, and each walk has its beginning, a visit for everybody who is listed there, with what that observer does, and
its end. What the entries say is judged by `Script.Conforms`. The registry is at every moment what the calls so far
make of the empty one, one after another: it lists those who joined and have not left since, each once, in the order
in which they joined. A call to register or to unregister reports exactly whether it changed that. And a walk, from
its beginning to its end, visits exactly those who were listed when it began, in their order, whatever was done to
the registry on the way. Both together leave nothing open: no other log has them.

The log of a script is put together from pieces, one for each call and one for each visit. `Piece` says what a
piece does to the registry and which visits it adds to the walk around it, and the pieces of a script add none.
-/

namespace DevicePairing

namespace Registry

variable {α : Type} [DecidableEq α] (a : α) (r : Registry α)

/-- To join is answered with yes exactly if the list has changed. -/
theorem register_changed_iff : (r.register a).1 = true ↔ (r.register a).2.members ≠ r.members := by
  by_cases h : a ∈ r.members
  · simp [register_of_mem h]
  · obtain ⟨hchanged, hmembers⟩ := members_register_of_not_mem h
    simp [hchanged, hmembers]

/-- To leave is answered with yes exactly if the list has changed. -/
theorem unregister_changed_iff : (r.unregister a).1 = true ↔ (r.unregister a).2.members ≠ r.members := by
  unfold unregister
  split
  · next h =>
    simp only [true_iff]
    intro hsame
    have hkept := hsame.symm ▸ h
    simp at hkept
  · simp

end Registry

namespace Script

variable {α : Type}

/-! ## What a log has of a script -/

/-- An observer is visited, and this is what the log has of it. -/
def stay (v : α × List (Entry α)) : List (Entry α) := .visited v.1 :: v.2

/-- A log is of a script: each call has its entry, in order, and each walk its beginning, the visits of all whom the
beginning names, with what they do, and its end. The answers and those who are named may be any. -/
def Follows : Script α → List (Entry α) → Prop
  | .done, log => log = []
  | .register a next, log => ∃ changed rest, log = .registered a changed :: rest ∧ (next changed).Follows rest
  | .unregister a next, log =>
    ∃ changed rest, log = .unregistered a changed :: rest ∧ (next changed).Follows rest
  | .clear next, log => ∃ rest, log = .cleared :: rest ∧ next.Follows rest
  | .forEach visit next, log => ∃ (stays : List (α × List (Entry α))) (rest : List (Entry α)),
    (∀ v ∈ stays, (visit v.1).Follows v.2) ∧ next.Follows rest ∧
      log = .began (stays.map (·.1)) :: stays.flatMap stay ++ .ended :: rest

/-! ## Who is listed after some calls -/

/-- A call that takes an observer off the list, if he is on it. -/
def Entry.Removes (a : α) : Entry α → Prop
  | .unregistered b _ => b = a
  | .cleared => True
  | _ => False

/-- An observer has joined and has not left since. -/
def Held (a : α) (past : List (Entry α)) : Prop :=
  ∃ before changed after, past = before ++ .registered a changed :: after ∧ ∀ e ∈ after, ¬ e.Removes a

/-- One observer has joined while another one was listed, and neither has left since. -/
def Precedes (past : List (Entry α)) (a b : α) : Prop :=
  ∃ before changed after, past = before ++ .registered b changed :: after ∧
    Held a before ∧ ¬ Held b before ∧ ∀ e ∈ after, ¬ e.Removes a ∧ ¬ e.Removes b

/-- A list names the observers that have joined and not left since, each once, in the order in which they
joined. -/
structure Lists (past : List (Entry α)) (members : List α) : Prop where
  /-- Nobody is named twice. -/
  nodup : members.Nodup
  /-- Those are named who have joined and not left since. -/
  mem_iff : ∀ a, a ∈ members ↔ Held a past
  /-- Whoever is named later has joined later. -/
  ordered : members.Pairwise (Precedes past)

variable {a b : α} {past : List (Entry α)} {e : Entry α} {members : List α}

/-- An entry of a log with one more at its end is that one, or stands in the log before it. -/
theorem concat_eq_iff {x : Entry α} {before after : List (Entry α)} :
    past ++ [e] = before ++ x :: after ↔ (past = before ∧ e = x ∧ after = []) ∨
      ∃ after', after = after' ++ [e] ∧ past = before ++ x :: after' := by
  constructor
  · intro h
    rcases List.eq_nil_or_concat after with rfl | ⟨after', last, rfl⟩
    · obtain ⟨rfl, hlast⟩ := List.append_inj' h rfl
      exact .inl ⟨rfl, List.singleton_inj.1 hlast, rfl⟩
    · rw [List.concat_eq_append, ← List.cons_append, ← List.append_assoc] at h
      obtain ⟨rfl, hlast⟩ := List.append_inj' h rfl
      exact .inr ⟨after', by rw [List.concat_eq_append, List.singleton_inj.1 hlast], rfl⟩
  · rintro (⟨rfl, rfl, rfl⟩ | ⟨after', rfl, rfl⟩)
    · rfl
    · rw [List.append_assoc, List.cons_append]

/-- Before anything has happened nobody has joined. -/
theorem not_held_nil (a : α) : ¬ Held a [] := by
  rintro ⟨before, _, _, h, _⟩
  exact List.append_ne_nil_of_right_ne_nil before (List.cons_ne_nil _ _) h.symm

/-- Who has joined and not left is who joins now, or had and does not leave now. -/
theorem held_concat : Held a (past ++ [e]) ↔
    (∃ changed, e = .registered a changed) ∨ (Held a past ∧ ¬ e.Removes a) := by
  constructor
  · rintro ⟨before, changed, after, h, kept⟩
    obtain ⟨_, rfl, _⟩ | ⟨after', rfl, rfl⟩ := concat_eq_iff.1 h
    · exact .inl ⟨changed, rfl⟩
    · obtain ⟨hkept, hlast⟩ := List.forall_mem_append.1 kept
      exact .inr ⟨⟨before, changed, after', rfl, hkept⟩, hlast e List.mem_cons_self⟩
  · rintro (⟨changed, rfl⟩ | ⟨⟨before, changed, after, rfl, kept⟩, hlast⟩)
    · exact ⟨past, changed, [], rfl, nofun⟩
    · refine ⟨before, changed, after ++ [e], by rw [List.append_assoc, List.cons_append], ?_⟩
      exact List.forall_mem_append.2 ⟨kept, List.forall_mem_singleton.2 hlast⟩

/-- An observer that joins comes after all that are listed. -/
theorem precedes_of_joins (changed : Bool) (ha : Held a past) (hb : ¬ Held b past) :
    Precedes (past ++ [.registered b changed]) a b :=
  ⟨past, changed, [], rfl, ha, hb, nofun⟩

/-- Of two observers one precedes the other as long as neither leaves. -/
theorem Precedes.concat (h : Precedes past a b) (ha : ¬ e.Removes a) (hb : ¬ e.Removes b) :
    Precedes (past ++ [e]) a b := by
  obtain ⟨before, changed, after, rfl, held, fresh, kept⟩ := h
  refine ⟨before, changed, after ++ [e], by rw [List.append_assoc, List.cons_append], held, fresh, ?_⟩
  exact List.forall_mem_append.2 ⟨kept, List.forall_mem_singleton.2 ⟨ha, hb⟩⟩

/-- A call that takes none of those off the list who are named leaves their order as it is. -/
theorem Lists.pairwise_concat (h : Lists past members) {members' : List α} (sub : members'.Sublist members)
    (kept : ∀ a ∈ members', ¬ e.Removes a) : members'.Pairwise (Precedes (past ++ [e])) :=
  (h.ordered.sublist sub).imp_of_mem fun ha hb precedes => precedes.concat (kept _ ha) (kept _ hb)

/-- A call that neither lets anybody join nor takes anybody off changes nothing. -/
theorem Lists.idle (h : Lists past members) (idle : ∀ a, ¬ e.Removes a)
    (joined : ∀ a changed, e = .registered a changed → a ∈ members) : Lists (past ++ [e]) members where
  nodup := h.nodup
  mem_iff a := by
    rw [held_concat, ← h.mem_iff]
    constructor
    · exact fun ha => .inr ⟨ha, idle a⟩
    · rintro (⟨changed, rfl⟩ | ⟨ha, _⟩)
      · exact joined a changed rfl
      · exact ha
  ordered := h.pairwise_concat (List.Sublist.refl _) fun a _ => idle a

/-- Who joins and is not on the list comes last on it. -/
theorem Lists.joins (h : Lists past members) (changed : Bool) (fresh : a ∉ members) :
    Lists (past ++ [.registered a changed]) (members ++ [a]) where
  nodup := List.nodup_append.2 ⟨h.nodup, List.pairwise_singleton .., by
    rintro x hx y hy rfl
    exact fresh (List.mem_singleton.1 hy ▸ hx)⟩
  mem_iff b := by
    rw [held_concat, ← h.mem_iff, List.mem_append, List.mem_singleton]
    constructor
    · rintro (hb | rfl)
      · exact .inr ⟨hb, id⟩
      · exact .inl ⟨changed, rfl⟩
    · rintro (⟨_, heq⟩ | ⟨hb, _⟩)
      · cases heq
        exact .inr rfl
      · exact .inl hb
  ordered := by
    refine List.pairwise_append.2
      ⟨h.pairwise_concat (List.Sublist.refl _) fun _ _ => id, List.pairwise_singleton .., ?_⟩
    rintro x hx y hy
    rw [List.mem_singleton.1 hy]
    exact precedes_of_joins changed ((h.mem_iff x).1 hx) (mt (h.mem_iff a).2 fresh)

/-- Who leaves is taken off the list, and the others keep their order. -/
theorem Lists.leaves [DecidableEq α] (h : Lists past members) (a : α) (changed : Bool) :
    Lists (past ++ [.unregistered a changed]) (members.filter (· ≠ a)) where
  nodup := h.nodup.sublist List.filter_sublist
  mem_iff b := by
    rw [held_concat, ← h.mem_iff, List.mem_filter, decide_eq_true_eq]
    constructor
    · exact fun ⟨hb, hne⟩ => .inr ⟨hb, fun heq => hne heq.symm⟩
    · rintro (⟨_, heq⟩ | ⟨hb, hkept⟩)
      · cases heq
      · exact ⟨hb, fun heq => hkept heq.symm⟩
  ordered := by
    refine h.pairwise_concat List.filter_sublist fun b hb heq => ?_
    obtain ⟨_, hne⟩ := List.mem_filter.1 hb
    exact of_decide_eq_true hne heq.symm

/-- Once the list was cleared nobody is on it. -/
theorem Lists.none (past : List (Entry α)) : Lists (past ++ [.cleared]) [] where
  nodup := .nil
  mem_iff a := by
    rw [held_concat]
    constructor
    · exact nofun
    · rintro (⟨_, heq⟩ | ⟨_, hkept⟩)
      · cases heq
      · exact absurd trivial hkept
  ordered := .nil

/-- Before anything has happened nobody is on the list. -/
theorem lists_nil : Lists ([] : List (Entry α)) [] where
  nodup := .nil
  mem_iff a := ⟨nofun, fun h => absurd h (not_held_nil a)⟩
  ordered := .nil

variable [DecidableEq α]

/-- What an entry stands for does this to the registry. -/
def Entry.apply : Entry α → Registry α → Registry α
  | .registered a _, r => (r.register a).2
  | .unregistered a _, r => (r.unregister a).2
  | .cleared, _ => .empty
  | _, r => r

/-- The registry after the calls of a log, one after another. -/
def replay (log : List (Entry α)) (r : Registry α) : Registry α := log.foldl (fun r e => e.apply r) r

/-- Whatever an entry stands for, the list is right after it if it was before. -/
theorem Lists.apply {r : Registry α} (h : Lists past r.members) (e : Entry α) :
    Lists (past ++ [e]) (e.apply r).members := by
  cases e with
  | registered a changed =>
    by_cases hmem : a ∈ r.members
    · show Lists _ (r.register a).2.members
      rw [Registry.register_of_mem hmem]
      refine h.idle (fun _ => id) fun b _ heq => ?_
      cases heq
      exact hmem
    · show Lists _ (r.register a).2.members
      rw [(Registry.members_register_of_not_mem hmem).2]
      exact h.joins changed hmem
  | unregistered a changed =>
    show Lists _ (r.unregister a).2.members
    rw [Registry.members_unregister]
    exact h.leaves a changed
  | cleared => exact Lists.none past
  | began _ | visited _ | ended => exact h.idle (fun _ => id) nofun

/-- So the list is right after any log. -/
theorem lists_replay (past : List (Entry α)) : Lists past (replay past .empty).members := by
  induction past using List.reverseRecOn with
  | nil => exact lists_nil
  | append_singleton past e ih =>
    unfold replay
    rw [List.foldl_append]
    exact ih.apply e

/-- A log may be replayed in two parts. -/
@[simp] theorem replay_append (log log' : List (Entry α)) (r : Registry α) :
    replay (log ++ log') r = replay log' (replay log r) := List.foldl_append

/-! ## The visits of a walk -/

/-- The visits of a walk, read off what follows its beginning up to its end. The visits of the walks within it are
left out; `depth` is how many of these are under way. -/
def visitsAt : (depth : Nat) → List (Entry α) → List α
  | _, [] => []
  | depth, .began _ :: log => visitsAt (depth + 1) log
  | 0, .ended :: _ => []
  | depth + 1, .ended :: log => visitsAt depth log
  | 0, .visited a :: log => a :: visitsAt 0 log
  | depth + 1, .visited _ :: log => visitsAt (depth + 1) log
  | depth, .registered _ _ :: log => visitsAt depth log
  | depth, .unregistered _ _ :: log => visitsAt depth log
  | depth, .cleared :: log => visitsAt depth log

/-- An entry reports what is the case: a call its effect on the registry, and the beginning of a walk those who are
listed, who are then visited in the rest of the log. -/
def Entry.Reports (r : Registry α) (rest : List (Entry α)) : Entry α → Prop
  | .registered a changed => changed = (r.register a).1
  | .unregistered a changed => changed = (r.unregister a).1
  | .began members => members = r.members ∧ visitsAt 0 rest = members
  | _ => True

/-- All entries of a log report what is the case; `rest` is what follows the log. -/
def Reports : Registry α → (log rest : List (Entry α)) → Prop
  | _, [], _ => True
  | r, e :: log, rest => e.Reports r (log ++ rest) ∧ Reports (e.apply r) log rest

/-- A piece of a run between two states of the registry, which adds some visits to the walk around it. -/
structure Piece (r : Registry α) (visits : List α) (log : List (Entry α)) (r' : Registry α) : Prop where
  /-- The calls in the log lead from one state to the other. -/
  replays : replay log r = r'
  /-- The walk around it gets the visits of the piece, and walks further out get none. -/
  visits : ∀ depth rest,
    visitsAt depth (log ++ rest) = (if depth = 0 then visits else []) ++ visitsAt depth rest
  /-- All entries report what is the case. -/
  reports : ∀ rest, Reports r log rest

/-- A log in two parts reports what is the case if both parts do. -/
theorem reports_append {log log' rest : List (Entry α)} {r : Registry α} :
    Reports r (log ++ log') rest ↔ Reports r log (log' ++ rest) ∧ Reports (replay log r) log' rest := by
  induction log generalizing r with
  | nil => exact ⟨fun h => ⟨trivial, h⟩, And.right⟩
  | cons e log ih =>
    show e.Reports r (log ++ log' ++ rest) ∧ Reports (e.apply r) (log ++ log') rest ↔
      (e.Reports r (log ++ (log' ++ rest)) ∧ Reports (e.apply r) log (log' ++ rest)) ∧
        Reports (replay log (e.apply r)) log' rest
    rw [ih, List.append_assoc, and_assoc]

/-- A whole log reports what is the case if each entry does, where it stands. -/
theorem reports_iff {log : List (Entry α)} {r : Registry α} :
    Reports r log [] ↔ ∀ past e rest, log = past ++ e :: rest → e.Reports (replay past r) rest := by
  induction log generalizing r with
  | nil => exact iff_of_true trivial fun past e rest h => by cases past <;> cases h
  | cons first log ih =>
    show first.Reports r (log ++ []) ∧ Reports (first.apply r) log [] ↔ _
    rw [List.append_nil, ih]
    constructor
    · rintro ⟨hfirst, hlater⟩ past e rest h
      cases past with
      | nil =>
        cases h
        exact hfirst
      | cons earlier past =>
        cases h
        exact hlater past e rest rfl
    · exact fun h => ⟨h [] first log rfl, fun past e rest hlog => h (first :: past) e rest (by rw [hlog]; rfl)⟩

namespace Piece

variable {r r' r'' : Registry α} {visits visits' : List α} {log log' : List (Entry α)} {e : Entry α}

/-- Nothing happens in an empty piece. -/
theorem nil (r : Registry α) : Piece r [] [] r := ⟨rfl, fun depth _ => by split <;> rfl, fun _ => trivial⟩

/-- Two pieces, one after the other, are a piece, with the visits of both. -/
theorem append (h : Piece r visits log r') (h' : Piece r' visits' log' r'') :
    Piece r (visits ++ visits') (log ++ log') r'' where
  replays := by rw [replay_append, h.replays, h'.replays]
  visits depth rest := by
    rw [List.append_assoc, h.visits, h'.visits]
    split
    · exact (List.append_assoc ..).symm
    · rfl
  reports rest := reports_append.2 ⟨h.reports _, by rw [h.replays]; exact h'.reports rest⟩

/-- A call, with the rest of the script behind it. -/
theorem call (skipped : ∀ depth rest, visitsAt depth (e :: rest) = visitsAt depth rest)
    (reports : ∀ rest, e.Reports r rest) (h : Piece (e.apply r) visits log r') :
    Piece r visits (e :: log) r' where
  replays := h.replays
  visits depth rest := by rw [List.cons_append, skipped, h.visits]
  reports rest := ⟨reports _, h.reports rest⟩

/-- A visit, with what the observer does. -/
theorem visited (a : α) (h : Piece r [] log r') : Piece r [a] (.visited a :: log) r' where
  replays := h.replays
  visits depth rest := by
    have hlog := h.visits depth rest
    cases depth with
    | zero => exact congrArg (a :: ·) hlog
    | succ depth => exact hlog
  reports rest := ⟨trivial, h.reports rest⟩

/-- A walk adds no visits to the walk around it. -/
theorem walk (h : Piece r r.members log r') : Piece r [] (.began r.members :: log ++ [.ended]) r' where
  replays := by
    show replay (log ++ [.ended]) r = r'
    rw [replay_append, h.replays]
    rfl
  visits depth rest := by
    rw [List.append_assoc]
    show visitsAt (depth + 1) (log ++ (.ended :: rest)) = _
    rw [h.visits, if_neg (Nat.succ_ne_zero depth), ite_self]
    rfl
  reports rest := by
    refine ⟨⟨rfl, ?_⟩, reports_append.2 ⟨h.reports _, trivial, trivial⟩⟩
    show visitsAt 0 ((log ++ [.ended]) ++ rest) = r.members
    rw [List.append_assoc, h.visits, if_pos rfl]
    exact List.append_nil _

end Piece

/-- Going over a list visits its elements in their order. -/
theorem piece_walk (visit : α → Script α) (as : List α) (r : Registry α)
    (h : ∀ a r, Piece r [] ((visit a).run r).1 ((visit a).run r).2) :
    Piece r as (Script.walk (fun a r => (visit a).run r) as r).1
      (Script.walk (fun a r => (visit a).run r) as r).2 := by
  induction as generalizing r with
  | nil => exact .nil r
  | cons a as ih => exact ((h a r).visited a).append (ih _)

/-- What a script does adds no visits to the walk in which it is done. -/
theorem piece_run (s : Script α) (r : Registry α) : Piece r [] (s.run r).1 (s.run r).2 := by
  induction s generalizing r with
  | done => exact .nil r
  | register a next ih => exact .call (fun _ _ => rfl) (fun _ => rfl) (ih _ _)
  | unregister a next ih => exact .call (fun _ _ => rfl) (fun _ => rfl) (ih _ _)
  | clear next ih => exact .call (fun _ _ => rfl) (fun _ => trivial) (ih _)
  | forEach visit next ihVisit ih =>
    have hwalk := (piece_walk visit r.members r ihVisit).walk
    have hrun := hwalk.append (ih _)
    rw [List.append_assoc] at hrun
    exact hrun

/-! ## The log of a script -/

/-- Going over a list, one visits its elements one after another, and what is logged of each visit is of the script
of the one who is visited. -/
theorem exists_stays (visit : α → Script α) (h : ∀ a r, (visit a).Follows ((visit a).run r).1) (as : List α)
    (r : Registry α) : ∃ stays : List (α × List (Entry α)), stays.map (·.1) = as ∧ (∀ v ∈ stays, (visit v.1).Follows v.2) ∧
      (walk (fun a r => (visit a).run r) as r).1 = stays.flatMap stay := by
  induction as generalizing r with
  | nil => exact ⟨[], rfl, nofun, rfl⟩
  | cons a as ih =>
    obtain ⟨stays, hnames, hfollows, hlog⟩ := ih ((visit a).run r).2
    refine ⟨(a, ((visit a).run r).1) :: stays, congrArg (a :: ·) hnames,
      List.forall_mem_cons.2 ⟨h a r, hfollows⟩, ?_⟩
    rw [List.flatMap_cons, ← hlog]
    rfl

/-- The log of a script that is run is of that script. -/
theorem follows_run (s : Script α) (r : Registry α) : s.Follows (s.run r).1 := by
  induction s generalizing r with
  | done => rfl
  | register a next ih | unregister a next ih => exact ⟨_, _, rfl, ih _ _⟩
  | clear next ih => exact ⟨_, rfl, ih _⟩
  | forEach visit next ihVisit ih =>
    obtain ⟨stays, hnames, hfollows, hlog⟩ := exists_stays visit ihVisit r.members r
    refine ⟨stays, _, hfollows, ih (walk (fun a r => (visit a).run r) r.members r).2, ?_⟩
    rw [hnames, ← hlog]
    rfl

/-- The visits of a walk that report what is the case are those of the walk that is run. -/
theorem eq_walk_of_reports (visit : α → Script α)
    (h : ∀ a log r rest, (visit a).Follows log → Reports r log rest → log = ((visit a).run r).1)
    (stays : List (α × List (Entry α))) {r : Registry α} {rest : List (Entry α)}
    (follows : ∀ v ∈ stays, (visit v.1).Follows v.2) (reports : Reports r (stays.flatMap stay) rest) :
    stays.flatMap stay = (walk (fun a r => (visit a).run r) (stays.map (·.1)) r).1 := by
  induction stays generalizing r with
  | nil => rfl
  | cons v stays ih =>
    obtain ⟨hfirst, hothers⟩ := List.forall_mem_cons.1 follows
    rw [List.flatMap_cons] at reports ⊢
    obtain ⟨⟨_, hstay⟩, hafter⟩ := reports_append.1 reports
    have hlog : v.2 = ((visit v.1).run r).1 := h _ _ _ _ hfirst hstay
    have hstate : replay (stay v) r = ((visit v.1).run r).2 :=
      (congrArg (replay · r) hlog).trans (piece_run (visit v.1) r).replays
    rw [ih hothers hafter, hstate, stay, hlog]
    rfl

/-- A log of a script whose entries report what is the case is the one of the script when it is run. -/
theorem eq_run_of_reports (s : Script α) {log : List (Entry α)} {r : Registry α} {rest : List (Entry α)}
    (follows : s.Follows log) (reports : Reports r log rest) : log = (s.run r).1 := by
  induction s generalizing log r rest with
  | done => exact follows
  | register a next ih | unregister a next ih =>
    obtain ⟨changed, after, rfl, hfollows⟩ := follows
    obtain ⟨rfl, hreports⟩ := reports
    exact congrArg (_ :: ·) (ih _ hfollows hreports)
  | clear next ih =>
    obtain ⟨after, rfl, hfollows⟩ := follows
    exact congrArg (_ :: ·) (ih hfollows reports.2)
  | forEach visit next ihVisit ih =>
    obtain ⟨stays, after, hvisits, hfollows, rfl⟩ := follows
    have hnames : stays.map (·.1) = r.members := reports.1.1
    have hreports : Reports r (stays.flatMap stay ++ .ended :: after) rest := reports.2
    obtain ⟨hwalk, _, hafter⟩ := reports_append.1 hreports
    have hlog := eq_walk_of_reports visit (fun a _ _ _ => ihVisit a) stays hvisits hwalk
    have hstate := (piece_walk visit r.members r fun a r => piece_run (visit a) r).replays
    rw [hnames] at hlog
    change Reports (replay (stays.flatMap stay) r) after rest at hafter
    rw [hlog, hstate] at hafter
    rw [hnames, hlog, ih hfollows hafter]
    rfl

/-- A log of calls on a registry that was empty, with walks in it. -/
structure Conforms (log : List (Entry α)) : Prop where
  /-- At every moment the registry lists those who have joined and not left since, in the order in which they
  joined. -/
  lists : ∀ past rest, log = past ++ rest → Lists past (replay past .empty).members
  /-- A call to register reports whether it changed the registry. -/
  registers : ∀ past a changed rest, log = past ++ .registered a changed :: rest →
    (changed = true ↔
      (replay (past ++ [.registered a changed]) .empty).members ≠ (replay past .empty).members)
  /-- So does a call to unregister. -/
  unregisters : ∀ past a changed rest, log = past ++ .unregistered a changed :: rest →
    (changed = true ↔
      (replay (past ++ [.unregistered a changed]) .empty).members ≠ (replay past .empty).members)
  /-- A walk visits those who are listed when it begins, one after another, and nobody else. -/
  walks : ∀ past members rest, log = past ++ .began members :: rest →
    members = (replay past .empty).members ∧ visitsAt 0 rest = members

/-- A log conforms to the calls in it if all entries report what is the case. -/
theorem conforms_iff {log : List (Entry α)} : Conforms log ↔ Reports .empty log [] := by
  rw [reports_iff]
  constructor
  · intro conforms past e rest hlog
    cases e with
    | registered a changed =>
      have hchanged := conforms.registers past a changed rest hlog
      rw [replay_append] at hchanged
      exact Bool.eq_iff_iff.2 (hchanged.trans (Registry.register_changed_iff a _).symm)
    | unregistered a changed =>
      have hchanged := conforms.unregisters past a changed rest hlog
      rw [replay_append] at hchanged
      exact Bool.eq_iff_iff.2 (hchanged.trans (Registry.unregister_changed_iff a _).symm)
    | began members => exact conforms.walks past members rest hlog
    | cleared | visited _ | ended => trivial
  · intro reports
    refine ⟨fun past _ _ => lists_replay past, ?registers, ?unregisters, ?walks⟩
    case registers =>
      intro past a changed rest hlog
      obtain rfl : changed = _ := reports past _ rest hlog
      rw [replay_append]
      exact Registry.register_changed_iff a _
    case unregisters =>
      intro past a changed rest hlog
      obtain rfl : changed = _ := reports past _ rest hlog
      rw [replay_append]
      exact Registry.unregister_changed_iff a _
    case walks => exact fun past members rest hlog => reports past _ rest hlog

/-- Whatever is done to a new registry, from outside or by the observers in the walks over it: the log has all of it
and nothing else, what it says is the case, and the registry is what the calls in it lead to. There is no other such
log. -/
theorem conforms_run (s : Script α) :
    s.Follows (s.run .empty).1 ∧ Conforms (s.run .empty).1 ∧
      (s.run .empty).2 = replay (s.run .empty).1 .empty ∧
      ∀ log, s.Follows log → Conforms log → log = (s.run .empty).1 := by
  have hpiece := piece_run s .empty
  refine ⟨follows_run s .empty, conforms_iff.2 (hpiece.reports []), hpiece.replays.symm, ?_⟩
  exact fun log follows conforms => eq_run_of_reports s follows (conforms_iff.1 conforms)

/-- Observers one and two are visited. The first one throws the second one out, lets a third one join and walks over
those who are listed then. -/
def upheaval : Script Nat :=
  .register 1 fun _ => .register 2 fun _ => .forEach
    (fun a => if a = 1 then .unregister 2 fun _ => .register 3 fun _ => .forEach (fun _ => .done) .done else .done)
    .done

/-- The second observer is visited all the same, and the third one only in the walk within. -/
theorem conforms_upheaval :
    (upheaval.run .empty).1 = [.registered 1 true, .registered 2 true, .began [1, 2], .visited 1,
      .unregistered 2 true, .registered 3 true, .began [1, 3], .visited 1, .visited 3, .ended, .visited 2,
      .ended] ∧
    (upheaval.run .empty).2.members = [1, 3] ∧
    upheaval.Follows (upheaval.run .empty).1 ∧ Conforms (upheaval.run .empty).1 := by
  obtain ⟨hfollows, hconforms, _, _⟩ := conforms_run upheaval
  exact ⟨by decide, by decide, hfollows, hconforms⟩

end Script

end DevicePairing
