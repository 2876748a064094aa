import StackGraph.Toml.Scalar
/-!
# Reading TOML

The tables that a text denotes. A reader takes the characters that are left and gives a value with
what is left behind it, or refuses. `Toml.read?` reads a whole text; the wording of faults is no
concern of this library.
-/

namespace StackGraph.Toml

/-- A reader takes characters from the start of a text. -/
abbrev Reader (α : Type) := List Char → Option (α × List Char)

/-- Whether a character may stand in a comment or between single quotes. -/
def isPlain (c : Char) : Bool := c == '\t' || (32 ≤ c.toNat && c.toNat != 127)

/-- What is left behind spaces and tabs. -/
def skipBlanks (s : List Char) : List Char := s.dropWhile fun c => c == ' ' || c == '\t'

/-- What is left behind a line break. -/
def lineBreak? : List Char → Option (List Char)
  | '\n' :: rest => some rest
  | '\r' :: '\n' :: rest => some rest
  | _ => none

/-- What is left behind a comment, if there is one. -/
def skipComment (s : List Char) : List Char :=
  match s with
  | '#' :: rest => rest.dropWhile isPlain
  | _ => s

/-- What is left behind blanks, line breaks and comments, of at most the given number. -/
def skipLines : Nat → List Char → List Char
  | 0, s => s
  | steps + 1, s =>
    let left := skipComment (skipBlanks s)
    match lineBreak? left with
    | some rest => skipLines steps rest
    | none => left

/-- What is left behind the end of a line: blanks, perhaps a comment, and a line break or nothing.
-/
def lineEnd? (s : List Char) : Option (List Char) :=
  match skipComment (skipBlanks s) with
  | [] => some []
  | left => lineBreak? left

/-! ### Text -/

/-- The character of an escape with a number. -/
def numbered? (digits : List Char) : Option Char := do
  if digits.all fun c => (Text.hexDigit? c).isSome then Text.charOf? (← Text.hexValue? digits)
  else none

/-- An escape behind its backslash. -/
def escape? : Reader Char
  | 'b' :: rest => some ('\x08', rest)
  | 't' :: rest => some ('\t', rest)
  | 'n' :: rest => some ('\n', rest)
  | 'f' :: rest => some ('\x0c', rest)
  | 'r' :: rest => some ('\r', rest)
  | 'e' :: rest => some ('\x1b', rest)
  | '"' :: rest => some ('"', rest)
  | '\\' :: rest => some ('\\', rest)
  | 'x' :: rest => if 2 ≤ rest.length then (numbered? (rest.take 2)).map (·, rest.drop 2) else none
  | 'u' :: rest => if 4 ≤ rest.length then (numbered? (rest.take 4)).map (·, rest.drop 4) else none
  | 'U' :: rest => if 8 ≤ rest.length then (numbered? (rest.take 8)).map (·, rest.drop 8) else none
  | _ => none

/-- A text up to the closing double quote, in at most the given number of steps; `done` is what has
been read, last character first. -/
def basicText? : Nat → List Char → Reader String
  | 0, _, _ => none
  | steps + 1, done, s =>
    match s with
    | '"' :: rest => some (String.ofList done.reverse, rest)
    | '\\' :: rest => do
      let (c, rest) ← escape? rest
      basicText? steps (c :: done) rest
    | c :: rest => if isPlain c then basicText? steps (c :: done) rest else none
    | [] => none

/-- A text up to the closing single quote. -/
def literalText? (s : List Char) : Option (String × List Char) :=
  match s.dropWhile fun c => isPlain c && c != '\'' with
  | '\'' :: rest => some (String.ofList (s.takeWhile fun c => isPlain c && c != '\''), rest)
  | _ => none

/-- What is left behind blanks and line breaks. -/
def skipGaps : List Char → List Char
  | ' ' :: rest => skipGaps rest
  | '\t' :: rest => skipGaps rest
  | '\n' :: rest => skipGaps rest
  | '\r' :: '\n' :: rest => skipGaps rest
  | s => s

/-- What is left behind a backslash at the end of a line: everything up to the next character that
is neither blank nor part of a line break. -/
def continuation? (s : List Char) : Option (List Char) :=
  (lineBreak? (skipBlanks s)).map skipGaps

/-- A text of several lines up to its closing quotes, three of them in a row. Up to two more in
front of them belong to the text. With double quotes, escapes are read and a backslash at the end of
a line joins it to the next. -/
def longText? (quote : Char) : Nat → List Char → Reader String
  | 0, _, _ => none
  | steps + 1, done, s =>
    let quotes := (s.takeWhile (· == quote)).length
    if 3 ≤ quotes then
      let kept := min (quotes - 3) 2
      some (String.ofList (done.reverse ++ List.replicate kept quote), s.drop (kept + 3))
    else
      match s with
      | [] => none
      | c :: rest =>
        if c = '\\' ∧ quote = '"' then
          match continuation? rest with
          | some rest => longText? quote steps done rest
          | none => do
            let (c, rest) ← escape? rest
            longText? quote steps (c :: done) rest
        else
          match lineBreak? s with
          | some rest =>
            let lineBreak := s.take (s.length - rest.length)
            longText? quote steps (lineBreak.reverse ++ done) rest
          | none => if isPlain c then longText? quote steps (c :: done) rest else none

/-- A text of several lines without the line break right behind its opening quotes. -/
def multiline? (quote : Char) (s : List Char) : Option (String × List Char) :=
  longText? quote (s.length + 1) [] ((lineBreak? s).getD s)

/-- A text on one line, between quotes of either kind. -/
def lineText? : Reader String
  | '"' :: rest => basicText? (rest.length + 1) [] rest
  | '\'' :: rest => literalText? rest
  | _ => none

/-- A text between quotes. -/
def text? : Reader String
  | '"' :: '"' :: '"' :: rest => multiline? '"' rest
  | '\'' :: '\'' :: '\'' :: rest => multiline? '\'' rest
  | s => lineText? s

/-! ### Names -/

/-- Whether a character may stand in a name without quotes. -/
def isBare (c : Char) : Bool := c.isAlphanum || c == '_' || c == '-'

/-- One part of a dotted name. -/
def namePart? (s : List Char) : Option (String × List Char) :=
  match s.takeWhile isBare with
  | [] => lineText? s
  | part => some (String.ofList part, s.drop part.length)

/-- A dotted name of at most the given number of parts. Blanks may surround a point. -/
def nameOf? : Nat → Reader (List String)
  | 0, _ => none
  | parts + 1, s => do
    let (part, rest) ← namePart? (skipBlanks s)
    match skipBlanks rest with
    | '.' :: rest =>
      let (others, rest) ← nameOf? parts rest
      some (part :: others, rest)
    | rest => some ([part], rest)

/-- How deep values may be nested, and how many parts a name may have. -/
def depthLimit : Nat := 80

/-- A dotted name. -/
def name? : Reader (List String) := nameOf? depthLimit

/-! ### Values -/

/-- Whether a character may stand in a value without quotes or brackets. -/
def isScalar (c : Char) : Bool := isBare c || c == '+' || c == '.' || c == ':'

/-- A value without quotes or brackets. A single space may separate a date from a time. -/
def scalarRun (s : List Char) : List Char :=
  let run := s.takeWhile isScalar
  match s.drop run.length with
  | ' ' :: c :: rest =>
    if isDate run && c.isDigit then run ++ ' ' :: (c :: rest).takeWhile isScalar else run
  | _ => run

/-- The items of an array up to its closing bracket, at most as many as given, read by `item`. Items
are separated by commas; one may follow the last. -/
def items? (item : Reader Value) : Nat → Reader (List Value)
  | 0, _ => none
  | steps + 1, s =>
    match skipLines s.length s with
    | ']' :: rest => some ([], rest)
    | s => do
      let (value, rest) ← item s
      match skipLines rest.length rest with
      | ',' :: rest =>
        let (values, rest) ← items? item steps rest
        some (value :: values, rest)
      | ']' :: rest => some ([value], rest)
      | _ => none

/-- A name, an equals sign and a value, added to the entries of a table in braces. Line breaks may
surround the equals sign. -/
def entry? (item : Reader Value) (es : Entries) : Reader Entries := fun s => do
  let (names, rest) ← name? s
  match skipLines rest.length rest with
  | '=' :: rest =>
    let (value, rest) ← item (skipLines rest.length rest)
    some ((← es.define names value .inline).2, rest)
  | _ => none

/-- The entries of a table in braces up to the closing one, at most as many as given. -/
def inlineEntries? (item : Reader Value) : Nat → Entries → Reader Value
  | 0, _, _ => none
  | steps + 1, es, s =>
    match skipLines s.length s with
    | '\x7d' :: rest => some (.table .inline es, rest)
    | s => do
      let (es, rest) ← entry? item es s
      match skipLines rest.length rest with
      | ',' :: rest => inlineEntries? item steps es rest
      | '\x7d' :: rest => some (.table .inline es, rest)
      | _ => none

/-- A value without brackets. -/
def plainValue? (s : List Char) : Option (Value × List Char) :=
  match s with
  | '"' :: _ | '\'' :: _ => do
    let (text, rest) ← text? s
    some (.string text, rest)
  | _ => do
    let run := scalarRun s
    some (← scalar? run, s.drop run.length)

/-- A value in which arrays and tables are nested at most as deep as given. -/
def value? : Nat → Reader Value
  | 0, s => plainValue? s
  | depth + 1, s =>
    match s with
    | '[' :: rest => do
      let (values, rest) ← items? (value? depth) (rest.length + 1) rest
      some (.array false values, rest)
    | '\x7b' :: rest => inlineEntries? (value? depth) (rest.length + 1) [] rest
    | _ => plainValue? s

/-! ### Lines -/

/-- A header between its brackets. -/
def header? (close : List Char) (s : List Char) : Option (List String × List Char) := do
  let (names, rest) ← name? s
  if Text.hasStart close rest then some (names, ← lineEnd? (rest.drop close.length)) else none

/-- Reads the lines of a text, of at most the given number, into the entries of the whole; `current`
names the table that lines without a header belong to. -/
def lines? : Nat → List String → Entries → List Char → Option Entries
  | 0, _, _, _ => none
  | steps + 1, current, es, s =>
    match skipLines s.length s with
    | [] => some es
    | '[' :: '[' :: rest => do
      let (names, rest) ← header? [']', ']'] rest
      lines? steps names (← es.openItem names .header).2 rest
    | '[' :: rest => do
      let (names, rest) ← header? [']'] rest
      lines? steps names (← es.openTable names .header).2 rest
    | s => do
      let (names, rest) ← name? s
      match rest with
      | '=' :: rest =>
        let (value, rest) ← value? depthLimit (skipBlanks rest)
        let rest ← lineEnd? rest
        let (_, es) ← es.change false (fun o inner => inner.define names value o) current .header
        lines? steps current es rest
      | _ => none

/-- The entries that a text denotes. A byte order mark in front is skipped. -/
def read? (text : String) : Option Entries :=
  let s := match text.toList with
    | '\ufeff' :: rest => rest
    | s => s
  lines? (s.length + 1) [] [] s

end StackGraph.Toml
