import DevicePairing.Cbor.Reader

/-!
# Records

Every message on the wire is a record: a fixed list of named columns, each of a fixed kind. A record is
written as a map whose keys are the names in order. It is read from such a map with its keys in any
order, unknown keys being skipped with their values, or from an array of all columns in order.

A `Row` is the tuple of a record's values. The writer and the reader are given by the list of columns
alone, so each message type only says what its columns are.
-/

namespace DevicePairing.Cbor

/-- What a column may hold. -/
inductive Kind where
  /-- One of a list of names. -/
  | choice (labels : List String)
  /-- A byte string of the given length, or null. -/
  | optionalBlock (n : Nat)
  /-- A truth value. -/
  | flag
  /-- Bytes, written as an array of numbers. -/
  | bytes
  /-- A number of 32 bits. -/
  | word

/-- The values of a kind. -/
def Kind.Value : Kind → Type
  | .choice labels => Fin labels.length
  | .optionalBlock n => Option (Block n)
  | .flag => Bool
  | .bytes => Bytes
  | .word => UInt32

/-- The columns of a record: name and kind, in order. -/
abbrev Columns := List (String × Kind)

/-- A value for every column. -/
def Row : Columns → Type
  | [] => Unit
  | (_, k) :: cs => k.Value × Row cs

/-- A value for some of the columns. -/
def Draft : Columns → Type
  | [] => Unit
  | (_, k) :: cs => Option k.Value × Draft cs

/-! ## Writing -/

/-- A number in its shortest form. -/
def writeNumber (n : Nat) : Bytes := writeHead 0 n

/-- A text of ASCII characters. -/
def writeText (s : String) : Bytes := writeHead 3 (ascii s).length ++ ascii s

/-- The written form of a value. -/
def Kind.write : (k : Kind) → k.Value → Bytes
  | .choice labels, (i : Fin labels.length) => writeText (labels.get i)
  | .optionalBlock _, none => [0xf6]
  | .optionalBlock _, some b => writeHead 2 b.val.length ++ b.val
  | .flag, (b : Bool) => [if b then 0xf5 else 0xf4]
  | .bytes, (bs : Bytes) => writeHead 4 bs.length ++ bs.flatMap fun b => writeNumber b.toNat
  | .word, (w : UInt32) => writeNumber w.toNat

/-- The columns of a row, one after another. -/
def Row.writeColumns : (cs : Columns) → Row cs → Bytes
  | [], _ => []
  | (name, k) :: cs, (v, row) => writeText name ++ k.write v ++ writeColumns cs row

/-- The written form of a row. -/
def Row.write (cs : Columns) (row : Row cs) : Bytes :=
  writeHead 5 cs.length ++ row.writeColumns cs

/-! ## Reading -/

/-- Reads a value of a kind. An optional block is null only as the bare byte `f6`; a tagged null is not
recognised. -/
def Kind.read (room : Nat) : (k : Kind) → Reader k.Value
  | .choice labels => Reader.choice room labels
  | .optionalBlock n => do
    if (← Reader.peek) = 0xf6 then
      let _ ← Reader.head
      return none
    else
      match Block.ofBytes? n (← Reader.octets room) with
      | some b => return some b
      | none => failure
  | .flag => Reader.flag room
  | .bytes => Reader.byteArray room
  | .word => do
    let n ← Reader.number room (capacity 4 - 1)
    return UInt32.ofNat n

/-- The value of a column that was not given, for kinds that allow it. -/
def Kind.absent? : (k : Kind) → Option k.Value
  | .optionalBlock _ => some none
  | _ => none

/-- A row read column by column. -/
def Row.readColumns (room : Nat) : (cs : Columns) → Reader (Row cs)
  | [] => return ()
  | (_, k) :: cs => do
    let v ← k.read room
    let row ← readColumns room cs
    return (v, row)

namespace Draft

/-- Nothing filled in yet. -/
def empty : (cs : Columns) → Draft cs
  | [] => ()
  | _ :: cs => (none, empty cs)

/-- Reads the value of the column at a place, which must not have one yet. -/
def fill (room : Nat) : {cs : Columns} → (place : Nat) → Draft cs → Reader (Draft cs)
  | [], _, _ => failure
  | (_, k) :: _, 0, (v, draft) => do
    match v with
    | some _ => failure
    | none => do
      let v ← k.read room
      return (some v, draft)
  | _ :: _, place + 1, (v, draft) => do
    let draft ← fill room place draft
    return (v, draft)

/-- The complete row, columns that may be absent taken as such. -/
def complete? : {cs : Columns} → Draft cs → Option (Row cs)
  | [], _ => some ()
  | (_, k) :: _, (v, draft) => do
    let v ← v.or k.absent?
    let row ← complete? draft
    return (v, row)

open Reader in
/-- Reads one entry of a map: fills the column its key names, or skips its value. -/
def entry (room : Nat) {cs : Columns} (draft : Draft cs) : Reader (Draft cs) := do
  match (← name room).find? (cs.map Prod.fst) with
  | some i => draft.fill room i.val
  | none => do
    skip room
    return draft

/-- Reads `n` entries. -/
def entries (room : Nat) {cs : Columns} : (n : Nat) → Draft cs → Reader (Draft cs)
  | 0, draft => return draft
  | n + 1, draft => do
    let draft ← draft.entry room
    entries room n draft

open Reader in
/-- Reads entries up to the stop mark, at most `fuel` of them. -/
def entriesUntilStop (room : Nat) {cs : Columns} : (fuel : Nat) → Draft cs → Reader (Draft cs)
  | 0, _ => failure
  | fuel + 1, draft => do
    if (← peek) = 0xff then
      stopMark
      return draft
    else
      let draft ← draft.entry room
      entriesUntilStop room fuel draft

end Draft

open Reader in
/-- Reads a row from a map or from an array. -/
def Row.read (cs : Columns) : Reader (Row cs) := do
  match ← item nestingLimit with
  | (.array (some n), room + 1) => if n = cs.length then readColumns room cs else failure
  | (.array none, room + 1) => do
    let row ← readColumns room cs
    stopMark
    return row
  | (.map length, room + 1) => do
    let draft ← match length with
      | some n => (Draft.empty cs).entries room n
      | none => fun bs => (Draft.empty cs).entriesUntilStop room (bs.length + 1) bs
    match draft.complete? with
    | some row => return row
    | none => failure
  | _ => failure

/-- The row that a byte string holds, with nothing after it. -/
def Row.decode? (cs : Columns) (bs : Bytes) : Option (Row cs) :=
  match Row.read cs bs with
  | some (row, []) => some row
  | _ => none

end DevicePairing.Cbor
