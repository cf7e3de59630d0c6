import DevicePairing.Cbor.Head
import DevicePairing.Text.Utf8

/-!
# Reading data items

A reader takes what it wants off the front of a byte string and leaves the rest, or refuses. Tags
around an item are passed over. Every array, map and tag opens one level of nesting, and a reader is
told how many levels may still be opened (its `room`), so that the depth of hostile input is bounded;
the bound of a whole message is `nestingLimit`.

Items of no interest are read by `skip`, which still demands that they be well formed.
-/

namespace DevicePairing.Cbor

/-- A reader of values of type `α`. -/
abbrev Reader (α : Type) := StateT Bytes Option α

/-- How many levels of nesting one message may open. -/
def nestingLimit : Nat := 127

namespace Reader

/-- The head of the next item. -/
def head : Reader Head := Head.read?

/-- The next item's head behind any tags, and the room left once the tags are counted. -/
def item : (room : Nat) → Reader (Head × Nat)
  | 0 => do
    match ← head with
    | .tag _ => failure
    | h => return (h, 0)
  | room + 1 => do
    match ← head with
    | .tag _ => item room
    | h => return (h, room + 1)

/-- The stop mark. -/
def stopMark : Reader Unit := do
  match ← head with
  | .stop => return ()
  | _ => failure

/-- The first byte, left in place. -/
def peek : Reader UInt8 := fun bs => (bs.head?).map fun b => (b, bs)

/-- `n` bytes as they are. -/
def raw (n : Nat) : Reader Bytes := takeExactly n

/-! ## Sequences -/

/-- Exactly `n` values, put in front of `seen` in reverse. -/
def timesOnto {α : Type} (r : Reader α) : (n : Nat) → (seen : List α) → Reader (List α)
  | 0, seen => return seen.reverse
  | n + 1, seen => do
    let a ← r
    timesOnto r n (a :: seen)

/-- Exactly `n` values. -/
def times {α : Type} (n : Nat) (r : Reader α) : Reader (List α) := timesOnto r n []

/-- Values up to the stop mark, which is taken too, put in front of `seen` in reverse; at most `fuel`
values. -/
def untilStopOnto {α : Type} (r : Reader α) : (fuel : Nat) → (seen : List α) → Reader (List α)
  | 0, _ => failure
  | fuel + 1, seen => do
    if (← peek) = 0xff then
      stopMark
      return seen.reverse
    else
      let a ← r
      untilStopOnto r fuel (a :: seen)

/-- Values up to the stop mark. A value takes at least one byte, so there are no more values than bytes
and the bound on their number is never felt. -/
def untilStop {α : Type} (r : Reader α) : Reader (List α) := fun bs =>
  untilStopOnto r (bs.length + 1) [] bs

/-- The values of an array, with or without a length. -/
def elements {α : Type} (length : Option Nat) (r : Reader α) : Reader (List α) :=
  match length with
  | some n => times n r
  | none => untilStop r

/-! ## Strings -/

/-- One piece of a byte string without a length. -/
def octetPiece : Reader Bytes := do
  match ← head with
  | .octets (some n) => raw n
  | _ => failure

/-- One piece of a text without a length. -/
def textPiece : Reader Bytes := do
  match ← head with
  | .text (some n) => raw n
  | _ => failure

/-- The contents of a byte string, after its head. -/
def octetsOf : (length : Option Nat) → Reader Bytes
  | some n => raw n
  | none => do
    let pieces ← untilStop octetPiece
    return pieces.flatten

/-- The contents of a text, after its head. The whole must be UTF-8; a piece need not be. -/
def textOf (length : Option Nat) : Reader Bytes := do
  let bs ← match length with
    | some n => raw n
    | none => do
      let pieces ← untilStop textPiece
      pure pieces.flatten
  if Utf8.valid bs then return bs else failure

/-! ## Whole items -/

/-- Passes over one well-formed item. -/
def skip : (room : Nat) → Reader Unit
  | 0 => do
    match ← head with
    | .octets l => let _ ← octetsOf l
    | .text l => let _ ← textOf l
    | .array _ | .map _ | .tag _ | .stop => failure
    | _ => return ()
  | room + 1 => do
    match ← head with
    | .octets l => let _ ← octetsOf l
    | .text l => let _ ← textOf l
    | .array l => let _ ← elements l (skip room)
    | .map l => let _ ← elements l (do skip room; skip room)
    | .tag _ => skip room
    | .stop => failure
    | _ => return ()

/-- A number up to `max`. -/
def number (room max : Nat) : Reader Nat := do
  match ← item room with
  | (.unsigned n, _) => if n ≤ max then return n else failure
  | _ => failure

/-- A truth value. -/
def flag (room : Nat) : Reader Bool := do
  match ← item room with
  | (.flag b, _) => return b
  | _ => failure

/-- The null or the undefined value. -/
def nothing (room : Nat) : Reader Unit := do
  match ← item room with
  | (.null, _) | (.undefined, _) => return ()
  | _ => failure

/-- A byte string. -/
def octets (room : Nat) : Reader Bytes := do
  match ← item room with
  | (.octets l, _) => octetsOf l
  | _ => failure

/-- An array of numbers below 256. -/
def byteArray (room : Nat) : Reader Bytes := do
  match ← item room with
  | (.array l, inner + 1) => do
    let ns ← elements l (number inner 255)
    return ns.map UInt8.ofNat
  | _ => failure

/-- A name: a text, a byte string with the same bytes, or the place in a list of names. -/
inductive Name where
  /-- A name that is spelled out. -/
  | spelled (bs : Bytes)
  /-- The place of a name. -/
  | place (n : Nat)
  deriving DecidableEq

/-- A name. -/
def name (room : Nat) : Reader Name := do
  match ← item room with
  | (.unsigned n, _) => return .place n
  | (.octets l, _) => return .spelled (← octetsOf l)
  | (.text l, _) => return .spelled (← textOf l)
  | _ => failure

/-- The place that a name has in a list of names. -/
def Name.find? (labels : List String) : Name → Option (Fin labels.length)
  | .spelled bs => (List.finRange labels.length).find? fun i => ascii labels[i] = bs
  | .place n => if h : n < labels.length then some ⟨n, h⟩ else none

/-- One of the names in a list. -/
def oneOf (room : Nat) (labels : List String) : Reader (Fin labels.length) := do
  match (← name room).find? labels with
  | some i => return i
  | none => failure

/-- A choice among names. Besides the bare name there are two long forms, which carry an empty content:
a map with one entry, if its head is the single byte `a1`, and an array of two. A tag in front of a long
form hides it. -/
def choice (room : Nat) (labels : List String) : Reader (Fin labels.length) := do
  let first ← peek
  if first = 0xa1 then
    match ← head, room with
    | .map _, inner + 1 => do
      let i ← oneOf inner labels
      nothing inner
      return i
    | _, _ => failure
  else if 0x80 ≤ first ∧ first ≤ 0x9f then
    match ← head, room with
    | .array (some 2), inner + 1 => do
      let i ← oneOf inner labels
      nothing inner
      return i
    | .array none, inner + 1 => do
      let i ← oneOf inner labels
      nothing inner
      stopMark
      return i
    | _, _ => failure
  else oneOf room labels

end Reader

end DevicePairing.Cbor
