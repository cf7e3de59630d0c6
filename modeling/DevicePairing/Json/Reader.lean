import DevicePairing.Json

/-!
# Reading JSON

A strict reader: white space may surround tokens, nothing may follow the value, control characters in
texts must be escaped, and numbers have no superfluous zeros. Nesting is bounded by the length of the
input alone.

The recursion is bounded by a count of steps that the length of the input pays for: every value takes at
least one character, and a value of a list or an object is at most two steps away.
-/

namespace DevicePairing.Json

/-- The text after any white space. -/
def afterSpace : List Char → List Char
  | c :: cs => if c = ' ' ∨ c = '\n' ∨ c = '\t' ∨ c = '\r' then afterSpace cs else c :: cs
  | [] => []

/-- The character that a one-letter escape stands for. -/
def escaped? : Char → Option Char
  | '"' => some '"'
  | '\\' => some '\\'
  | '/' => some '/'
  | 'b' => some '\x08'
  | 'f' => some '\x0c'
  | 'n' => some '\n'
  | 'r' => some '\r'
  | 't' => some '\t'
  | _ => none

/-- The number of four hexadecimal digits. -/
def unit? (a b c d : Char) : Option Nat := do
  let a ← hexValue? a
  let b ← hexValue? b
  let c ← hexValue? c
  let d ← hexValue? d
  return ((a * 16 + b) * 16 + c) * 16 + d

/-- The units of a text up to its closing quote, the opening one already taken. -/
def readText : List Char → Option (List TextUnit × List Char)
  | [] => none
  | '"' :: cs => some ([], cs)
  | '\\' :: 'u' :: a :: b :: c :: d :: cs => do
    let n ← unit? a b c d
    let (us, rest) ← readText cs
    return (.code n :: us, rest)
  | '\\' :: e :: cs => do
    let c ← escaped? e
    let (us, rest) ← readText cs
    return (.char c :: us, rest)
  | c :: cs =>
    if c = '\\' ∨ c.toNat < 0x20 then none
    else do
      let (us, rest) ← readText cs
      return (.char c :: us, rest)

/-- A run of digits and the rest. -/
def spanDigits : List Char → List Char × List Char
  | c :: cs => if c.isDigit then ((c :: (spanDigits cs).1), (spanDigits cs).2) else ([], c :: cs)
  | [] => ([], [])

/-- The digits before the point: a single zero, or a run that starts with another digit. -/
def readWhole (cs : List Char) : Option (List Char × List Char) :=
  match cs with
  | '0' :: rest => some (['0'], rest)
  | _ =>
    match spanDigits cs with
    | ([], _) => none
    | p => some p

/-- The point and the digits after it, if there is a point. -/
def readFraction (cs : List Char) : Option (List Char × List Char) :=
  match cs with
  | '.' :: rest =>
    match spanDigits rest with
    | ([], _) => none
    | (ds, rest) => some ('.' :: ds, rest)
  | _ => some ([], cs)

/-- The exponent, if there is one. -/
def readExponent (cs : List Char) : Option (List Char × List Char) :=
  match cs with
  | e :: rest =>
    if e = 'e' ∨ e = 'E' then
      let (sign, rest) := match rest with
        | '+' :: rest => (['+'], rest)
        | '-' :: rest => (['-'], rest)
        | _ => ([], rest)
      match spanDigits rest with
      | ([], _) => none
      | (ds, rest) => some (e :: (sign ++ ds), rest)
    else some ([], cs)
  | [] => some ([], [])

/-- The literal of a number. -/
def readNumber (cs : List Char) : Option (List Char × List Char) := do
  let (sign, cs) := match cs with
    | '-' :: rest => (['-'], rest)
    | _ => ([], cs)
  let (whole, cs) ← readWhole cs
  let (fraction, cs) ← readFraction cs
  let (exponent, cs) ← readExponent cs
  return (sign ++ whole ++ fraction ++ exponent, cs)

mutual

/-- A value with any white space before it. -/
def readValue : (fuel : Nat) → List Char → Option (Json × List Char)
  | 0, _ => none
  | fuel + 1, cs =>
    match afterSpace cs with
    | 'n' :: 'u' :: 'l' :: 'l' :: rest => some (.null, rest)
    | 't' :: 'r' :: 'u' :: 'e' :: rest => some (.bool true, rest)
    | 'f' :: 'a' :: 'l' :: 's' :: 'e' :: rest => some (.bool false, rest)
    | '"' :: rest => (readText rest).map fun p => (.text p.1, p.2)
    | '[' :: rest =>
      match afterSpace rest with
      | ']' :: rest => some (.array [], rest)
      | _ => (readItems fuel rest).map fun p => (.array p.1, p.2)
    | '{' :: rest =>
      match afterSpace rest with
      | '}' :: rest => some (.object [], rest)
      | _ => (readMembers fuel rest).map fun p => (.object p.1, p.2)
    | rest => (readNumber rest).map fun p => (.number p.1, p.2)

/-- The values of a list and its closing bracket. -/
def readItems : (fuel : Nat) → List Char → Option (List Json × List Char)
  | 0, _ => none
  | fuel + 1, cs => do
    let (v, cs) ← readValue fuel cs
    match afterSpace cs with
    | ',' :: cs => do
      let (vs, cs) ← readItems fuel cs
      return (v :: vs, cs)
    | ']' :: cs => return ([v], cs)
    | _ => none

/-- The members of an object and its closing brace. -/
def readMembers : (fuel : Nat) → List Char → Option (List (List TextUnit × Json) × List Char)
  | 0, _ => none
  | fuel + 1, cs =>
    match afterSpace cs with
    | '"' :: cs => do
      let (name, cs) ← readText cs
      match afterSpace cs with
      | ':' :: cs => do
        let (v, cs) ← readValue fuel cs
        match afterSpace cs with
        | ',' :: cs => do
          let (ms, cs) ← readMembers fuel cs
          return ((name, v) :: ms, cs)
        | '}' :: cs => return ([(name, v)], cs)
        | _ => none
      | _ => none
    | _ => none

end

/-- The value that a text holds, with nothing but white space around it. -/
def parse? (s : String) : Option Json := do
  let cs := s.toList
  let (v, rest) ← readValue (2 * cs.length + 2) cs
  if afterSpace rest = [] then some v else none

end DevicePairing.Json
