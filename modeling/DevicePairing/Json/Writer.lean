import DevicePairing.Json

/-!
# Writing JSON

One writer with two layouts: `compact`, without any white space, and `pretty`, with one member or
element a line and two blanks for each level. Empty lists and objects are written without a line break
in both.
-/

namespace DevicePairing.Json

/-- Where white space goes. -/
structure Layout where
  /-- What stands before an element at a given depth, and before the bracket that closes it. -/
  newline : (depth : Nat) → List Char
  /-- What stands between a name and its value. -/
  colon : List Char

/-- No white space. -/
def Layout.compact : Layout := ⟨fun _ => [], [':']⟩

/-- One element a line, indented by two blanks a level. -/
def Layout.pretty : Layout := ⟨fun depth => '\n' :: List.replicate (2 * depth) ' ', [':', ' ']⟩

/-- Four hexadecimal digits. -/
def unitDigits (n : Nat) : List Char :=
  [hexDigit (n / 4096 % 16), hexDigit (n / 256 % 16), hexDigit (n / 16 % 16), hexDigit (n % 16)]

/-- The written form of a character: the quote, the backslash and control characters are escaped. -/
def writeChar (c : Char) : List Char :=
  if c = '"' then ['\\', '"']
  else if c = '\\' then ['\\', '\\']
  else if c = '\x08' then ['\\', 'b']
  else if c = '\x0c' then ['\\', 'f']
  else if c = '\n' then ['\\', 'n']
  else if c = '\r' then ['\\', 'r']
  else if c = '\t' then ['\\', 't']
  else if c.toNat < 0x20 then '\\' :: 'u' :: unitDigits c.toNat
  else [c]

/-- The written form of a unit. -/
def writeUnit : TextUnit → List Char
  | .char c => writeChar c
  | .code n => '\\' :: 'u' :: unitDigits n

/-- A text in quotes. -/
def writeText (us : List TextUnit) : List Char := '"' :: (us.flatMap writeUnit ++ ['"'])

mutual

/-- The written form of a value at a given depth. -/
def write (l : Layout) (depth : Nat) : Json → List Char
  | .null => ['n', 'u', 'l', 'l']
  | .bool true => ['t', 'r', 'u', 'e']
  | .bool false => ['f', 'a', 'l', 's', 'e']
  | .number literal => literal
  | .text us => writeText us
  | .array [] => ['[', ']']
  | .array (v :: vs) =>
    '[' :: (l.newline (depth + 1) ++ write l (depth + 1) v ++ writeItems l depth vs ++
      l.newline depth ++ [']'])
  | .object [] => ['{', '}']
  | .object (m :: ms) =>
    '{' :: (l.newline (depth + 1) ++ writeMember l depth m ++ writeMembers l depth ms ++
      l.newline depth ++ ['}'])

/-- The second and later values of a list at a given depth. -/
def writeItems (l : Layout) (depth : Nat) : List Json → List Char
  | [] => []
  | v :: vs =>
    ',' :: (l.newline (depth + 1) ++ write l (depth + 1) v ++ writeItems l depth vs)

/-- A name with its value. -/
def writeMember (l : Layout) (depth : Nat) : List TextUnit × Json → List Char
  | (name, v) => writeText name ++ l.colon ++ write l (depth + 1) v

/-- The second and later members of an object at a given depth. -/
def writeMembers (l : Layout) (depth : Nat) : List (List TextUnit × Json) → List Char
  | [] => []
  | m :: ms =>
    ',' :: (l.newline (depth + 1) ++ writeMember l depth m ++ writeMembers l depth ms)

end

/-- The text of a value without white space. -/
def compact (v : Json) : String := String.ofList (write .compact 0 v)

/-- The text of a value with one element a line. -/
def pretty (v : Json) : String := String.ofList (write .pretty 0 v)

end DevicePairing.Json
