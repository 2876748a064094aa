import StackGraph.Json
/-!
# Reading JSON

The value that a JSON text denotes. Blanks may stand around every part; between quotes a character
may be written as it is, behind a backslash, or by its code in hexadecimal digits, in two parts if
it needs more than four of them. Numbers are natural, as those of `Json` are, and have no leading
zeros. Arrays and objects may stand inside each other to a depth of 127.

Each reader takes the text from where it begins and gives what it read with the text that is left.
-/

namespace StackGraph.Json

/-- Whether a character may stand between the parts of a text. -/
def isSpace (c : Char) : Bool := c == ' ' || c == '\n' || c == '\r' || c == '\t'

/-- The text without the blanks at its start. -/
def skipSpace (s : List Char) : List Char := s.dropWhile isSpace

/-- The character that a letter behind a backslash stands for. -/
def escaped? : Char → Option Char
  | '"' => some '"'
  | '\\' => some '\\'
  | '/' => some '/'
  | 'b' => some '\x08'
  | 'f' => some '\x0c'
  | 'n' => some '\n'
  | 'r' => some '\r'
  | 't' => some '\t'
  | _ => none

/-- The code of a character in two parts, the first and the second of which lie in ranges of their
own. -/
def joinParts? (first second : Nat) : Option Nat :=
  if 0xd800 ≤ first ∧ first < 0xdc00 ∧ 0xdc00 ≤ second ∧ second < 0xe000 then
    some (0x10000 + (first - 0xd800) * 0x400 + (second - 0xdc00))
  else none

/-- A text up to the quotation mark at its end. -/
def quoted? : List Char → Option (List Char × List Char)
  | [] => none
  | '"' :: rest => some ([], rest)
  | '\\' :: 'u' :: a :: b :: c :: d :: rest => do
    let code ← Text.hexValue? [a, b, c, d]
    match Text.charOf? code with
    | some char => (quoted? rest).map fun (text, s) => (char :: text, s)
    | none =>
      match rest with
      | '\\' :: 'u' :: a :: b :: c :: d :: rest => do
        let char ← Text.charOf? (← joinParts? code (← Text.hexValue? [a, b, c, d]))
        (quoted? rest).map fun (text, s) => (char :: text, s)
      | _ => none
  | '\\' :: c :: rest => do
    let char ← escaped? c
    (quoted? rest).map fun (text, s) => (char :: text, s)
  | c :: rest =>
    if c.toNat < 32 then none else (quoted? rest).map fun (text, s) => (c :: text, s)

/-- A number. -/
def number? (s : List Char) : Option (Nat × List Char) :=
  let digits := s.takeWhile Char.isDigit
  if digits.length ≠ 1 ∧ digits.head? = some '0' then none
  else (Text.natValue? digits).map fun n => (n, s.dropWhile Char.isDigit)

/-- A value that holds no other values. -/
def scalar? : List Char → Option (Json × List Char)
  | '"' :: rest => (quoted? rest).map fun (text, s) => (string (String.ofList text), s)
  | 'n' :: 'u' :: 'l' :: 'l' :: rest => some (null, rest)
  | 't' :: 'r' :: 'u' :: 'e' :: rest => some (bool true, rest)
  | 'f' :: 'a' :: 'l' :: 's' :: 'e' :: rest => some (bool false, rest)
  | s => (number? s).map fun (n, s) => (nat n, s)

section Elements

variable {α : Type}

/-- At least one element, and the further ones behind commas, up to a closing bracket; not more of
them than given. -/
def elements? (element? : List Char → Option (α × List Char)) (closing : Char) :
    Nat → List Char → Option (List α × List Char)
  | 0, _ => none
  | most + 1, s => do
    let (x, s) ← element? s
    match skipSpace s with
    | [] => none
    | c :: rest =>
      if c = closing then some ([x], rest)
      else if c = ',' then (elements? element? closing most rest).map fun (xs, s) => (x :: xs, s)
      else none

/-- The elements between two brackets, behind the opening one. -/
def enclosed? (element? : List Char → Option (α × List Char)) (closing : Char) (s : List Char) :
    Option (List α × List Char) :=
  match skipSpace s with
  | [] => none
  | c :: rest =>
    if c = closing then some ([], rest)
    else elements? element? closing (c :: rest).length (c :: rest)

/-- A member of an object. -/
def member? (value? : List Char → Option (α × List Char)) (s : List Char) :
    Option ((String × α) × List Char) :=
  match skipSpace s with
  | '"' :: rest => do
    let (key, s) ← quoted? rest
    match skipSpace s with
    | ':' :: rest => (value? rest).map fun (v, s) => ((String.ofList key, v), s)
    | _ => none
  | _ => none

end Elements

/-- A value in which arrays and objects stand inside each other to at most the given depth. -/
def value? : Nat → List Char → Option (Json × List Char)
  | 0, s => scalar? (skipSpace s)
  | depth + 1, s =>
    match skipSpace s with
    | '[' :: rest => (enclosed? (value? depth) ']' rest).map fun (items, s) => (array items, s)
    | '\x7b' :: rest =>
      (enclosed? (member? (value? depth)) '\x7d' rest).map fun (members, s) => (object members, s)
    | s => scalar? s

/-- The depth to which arrays and objects may stand inside each other. -/
def depthLimit : Nat := 127

/-- The value that a text denotes. -/
def read? (text : String) : Option Json := do
  let (v, rest) ← value? depthLimit text.toList
  if (skipSpace rest).isEmpty then some v else none

end StackGraph.Json
