/-!
# Registries

A registry lists the observers of something in the order in which they joined, each at most once. To
tell them of an event, one walks over the list as it was when the walk began, so observers may join and
leave during the walk, or start walks of their own, without changing it.

`Script` is what observers may do to the registry they are in, walks within walks included;
`Script.run` does it and records each visit and each answer.
-/

namespace DevicePairing

/-- The observers of something, in the order in which they joined. -/
structure Registry (α : Type) where
  /-- The observers. -/
  members : List α
  /-- No observer is listed twice. -/
  nodup : members.Nodup

namespace Registry

variable {α : Type}

/-- The registry without observers. -/
def empty : Registry α := ⟨[], .nil⟩

variable [DecidableEq α]

/-- Lets an observer join at the end, unless it is in already. The answer says whether it joined. -/
def register (a : α) (r : Registry α) : Bool × Registry α :=
  if h : a ∈ r.members then (false, r)
  else (true, ⟨r.members ++ [a],
    List.nodup_append.2 ⟨r.nodup, by simp, by
      rintro x hx y hy rfl
      exact h (List.mem_singleton.1 hy ▸ hx)⟩⟩)

/-- Lets an observer leave. The answer says whether it was in. -/
def unregister (a : α) (r : Registry α) : Bool × Registry α :=
  if a ∈ r.members then (true, ⟨r.members.filter (· ≠ a), r.nodup.sublist List.filter_sublist⟩)
  else (false, r)

/-- Who is there already is not added again. -/
theorem register_of_mem {a : α} {r : Registry α} (h : a ∈ r.members) :
    r.register a = (false, r) := dif_pos h

/-- Who is not there yet is added behind all others. -/
theorem members_register_of_not_mem {a : α} {r : Registry α} (h : a ∉ r.members) :
    (r.register a).1 = true ∧ (r.register a).2.members = r.members ++ [a] := by
  unfold register
  rw [dif_neg h]
  exact ⟨rfl, rfl⟩

/-- Whoever leaves, the others keep their order. -/
theorem members_unregister (a : α) (r : Registry α) :
    (r.unregister a).2.members = r.members.filter (· ≠ a) := by
  unfold unregister
  split
  · rfl
  · next h =>
    refine (List.filter_eq_self.2 fun x hx => ?_).symm
    rw [decide_eq_true_eq]
    rintro rfl
    exact h hx

end Registry

/-! ## What observers may do -/

/-- Something done to a registry: each step may depend on the answer to the one before it, and a walk
says what every visited observer does in turn. -/
inductive Script (α : Type) where
  /-- Nothing more. -/
  | done
  /-- An observer joins. -/
  | register (a : α) (next : Bool → Script α)
  /-- An observer leaves. -/
  | unregister (a : α) (next : Bool → Script α)
  /-- All observers leave. -/
  | clear (next : Script α)
  /-- A walk over the observers. -/
  | forEach (visit : α → Script α) (next : Script α)

namespace Script

variable {α : Type}

/-- What happened while a script ran. -/
inductive Entry (α : Type) where
  /-- An observer joined, or was in already. -/
  | registered (a : α) (changed : Bool)
  /-- An observer left, or was not in. -/
  | unregistered (a : α) (changed : Bool)
  /-- All observers left. -/
  | cleared
  /-- A walk began over these observers. -/
  | began (members : List α)
  /-- A walk came to an observer. -/
  | visited (a : α)
  /-- The latest walk that had begun and not ended came to its end. -/
  | ended
  deriving DecidableEq

/-- Goes over a list with a given way to deal with each element. -/
def walk {σ : Type} (visit : α → σ → List (Entry α) × σ) : List α → σ → List (Entry α) × σ
  | [], s => ([], s)
  | a :: rest, s =>
    let (first, s) := visit a s
    let (others, s) := walk visit rest s
    (.visited a :: first ++ others, s)

/-- Runs a script. -/
def run [DecidableEq α] : Script α → Registry α → List (Entry α) × Registry α
  | .done, r => ([], r)
  | .register a next, r =>
    let (changed, r) := r.register a
    let (entries, r) := (next changed).run r
    (.registered a changed :: entries, r)
  | .unregister a next, r =>
    let (changed, r) := r.unregister a
    let (entries, r) := (next changed).run r
    (.unregistered a changed :: entries, r)
  | .clear next, _ =>
    let (entries, r) := next.run .empty
    (.cleared :: entries, r)
  | .forEach visit next, r =>
    let (visits, r') := walk (fun a s => (visit a).run s) r.members r
    let (entries, r'') := next.run r'
    (.began r.members :: visits ++ .ended :: entries, r'')

end Script

end DevicePairing
