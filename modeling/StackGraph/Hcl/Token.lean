import StackGraph.Decimal.Binary64
import StackGraph.Hcl.Concrete
import StackGraph.Text.Basic
import StackGraph.Text.Identifier
/-!
# Reading tokens of the configuration language

A reader consumes characters from the start of a text and gives what it read, or it refuses. The
wording of syntax errors is no concern of this library, but there are two ways to refuse
(`Refusal`): where a text turns out to be of another kind, another reading of it may be tried from
the same place (`Reader.attempt`); where it is of the right kind but malformed, the whole text is
refused. Behind the start of a construct its further signs are usually `Reader.required`.
-/

namespace StackGraph.Hcl

open Concrete (Blank)

/-- How a reader refuses a text. -/
inductive Refusal where
  /-- The text is not of this kind, but it may be of another. A text that ends too early mostly is
  no more than that. -/
  | mismatch
  /-- The text is of this kind and malformed. -/
  | malformed
deriving DecidableEq, Repr

/-- A reader goes forward in a text and gives a value, or refuses. -/
abbrev Reader := StateT (List Char) (Except Refusal)

namespace Reader

/-- Refuses a text as one of another kind. -/
def mismatch {α : Type} : Reader α := fun _ => .error .mismatch

/-- Refuses a text for good. -/
def malformed {α : Type} : Reader α := fun _ => .error .malformed

/-- Refuses a text for good, unless it has ended. -/
def unexpected {α : Type} : Reader α := fun s =>
  if s.isEmpty then .error .mismatch else .error .malformed

/-- Reads what has to stand here: a text of another kind is malformed. -/
def required {α : Type} (r : Reader α) : Reader α := fun s =>
  match r s with
  | .ok result => .ok result
  | .error _ => .error .malformed

/-- Reads something if it stands here. Nothing is consumed if the text is of another kind. -/
def attempt {α : Type} (r : Reader α) : Reader (Option α) := fun s =>
  match r s with
  | .ok (value, rest) => .ok (some value, rest)
  | .error .mismatch => .ok (none, s)
  | .error .malformed => .error .malformed

/-- Whether a reader does not refuse here; nothing is consumed. -/
def accepts {α : Type} (r : Reader α) : Reader Bool := fun s => .ok ((r s).toBool, s)

/-- Reads something, or something else if the text is of another kind. -/
def orElse {α : Type} (r other : Reader α) : Reader α := do
  match ← attempt r with
  | some value => return value
  | none => other

/-- The characters that are left. -/
def rest : Reader (List Char) := fun s => .ok (s, s)

/-- Goes on with the given characters. -/
def goTo (rest : List Char) : Reader Unit := fun _ => .ok ((), rest)

/-- The next character, which is not consumed. -/
def peek : Reader (Option Char) := fun s => .ok (s.head?, s)

/-- Whether the text goes on as given; nothing is consumed. -/
def ahead (token : String) : Reader Bool := fun s => .ok (Text.hasStart token.toList s, s)

/-- Consumes the next `n` characters. -/
def take (n : Nat) : Reader (List Char) := fun s => .ok (s.take n, s.drop n)

/-- Consumes a fixed text. -/
def token (t : String) : Reader Unit := do
  if ← ahead t then let _ ← take t.length else mismatch

/-- Consumes a fixed text, if it stands here, and tells whether it did. -/
def mark (t : String) : Reader Bool := do
  let marked ← ahead t
  if marked then token t
  return marked

/-- Consumes the longest run of characters that satisfy `p`. -/
def takeWhile (p : Char → Bool) : Reader (List Char) := fun s =>
  .ok (s.takeWhile p, s.dropWhile p)

/-- Whether nothing is left. -/
def atEnd : Reader Bool := fun s => .ok (s.isEmpty, s)

/-! ### Blanks and comments -/

/-- Where a scan over blanks stands. In a comment `start` is the number of characters before it. -/
inductive BlankState where
  | outside
  | lineComment (start : Nat)
  | blockComment (start : Nat)

/-- The number of blanks and comment characters that a text starts with, added to `n`. Line breaks
and comments up to the end of a line count only if `lines` is set. A comment that is never closed
does not count, nor does one up to the end of a line with a carriage return inside. -/
def blankLength (lines : Bool) : BlankState → List Char → Nat → Nat
  | .outside, '/' :: '*' :: rest, n => blankLength lines (.blockComment n) rest (n + 2)
  | .outside, '/' :: '/' :: rest, n =>
    if lines then blankLength lines (.lineComment n) rest (n + 2) else n
  | .outside, c :: rest, n =>
    if c = ' ' ∨ c = '\t' ∨ (lines ∧ (c = '\n' ∨ c = '\r')) then
      blankLength lines .outside rest (n + 1)
    else if lines ∧ c = '#' then blankLength lines (.lineComment n) rest (n + 1)
    else n
  | .outside, [], n => n
  | .lineComment _, '\n' :: rest, n => blankLength lines .outside rest (n + 1)
  | .lineComment _, '\r' :: '\n' :: rest, n => blankLength lines .outside rest (n + 2)
  | .lineComment start, '\r' :: _, _ => start
  | .lineComment start, _ :: rest, n => blankLength lines (.lineComment start) rest (n + 1)
  | .lineComment _, [], n => n
  | .blockComment _, '*' :: '/' :: rest, n => blankLength lines .outside rest (n + 2)
  | .blockComment start, _ :: rest, n => blankLength lines (.blockComment start) rest (n + 1)
  | .blockComment start, [], _ => start

/-- Consumes blanks and comments; line breaks are blanks if `lines` is set. -/
def blanks (lines : Bool) : Reader Blank := do
  take (blankLength lines .outside (← rest) 0)

/-- Consumes a comment up to the end of its line, if there is one. -/
def lineComment : Reader Blank := do
  if (← ahead "#") || (← ahead "//") then takeWhile fun c => c != '\n' && c != '\r'
  else return []

/-- Consumes a line break. -/
def lineBreak : Reader Unit := do
  if ← ahead "\r\n" then token "\r\n" else token "\n"

/-! ### Names and numbers -/

/-- Consumes a name. -/
def name : Reader String := do
  match ← peek with
  | some c =>
    if Text.isIdStart c || c == '_' then
      return String.ofList (← takeWhile fun c => Text.isIdContinue c || c == '-')
    else mismatch
  | none => mismatch

/-- Whether a name could start here. -/
def nameAhead : Reader Bool := do
  return (← peek).any fun c => Text.isIdStart c || c == '_'

/-- Consumes decimal digits, at least one. -/
def digits : Reader (List Char) := do
  let ds ← takeWhile Char.isDigit
  if ds.isEmpty then mismatch else return ds

/-- Consumes the letter, the sign and the digits of an exponent, and gives it with its spelling. -/
def exponent : Reader (Int × List Char) := do
  let letter ← if (← ahead "e") || (← ahead "E") then take 1 else mismatch
  let negative ← ahead "-"
  let sign ← if negative || (← ahead "+") then take 1 else pure []
  let ds ← digits
  let n := (Text.natValue? ds).getD 0
  return (if negative then -Int.ofNat n else Int.ofNat n, letter ++ sign ++ ds)

/-- Consumes digits with a point or an exponent, and gives the number with its spelling. -/
def fractional : Reader (Number × List Char) := do
  let whole ← digits
  let (fraction, power, spelling) ← orElse
    (do
      token "."
      let fraction ← digits
      let (power, spelling) := (← attempt exponent).getD (0, [])
      return (fraction, power, '.' :: fraction ++ spelling))
    (do
      let (power, spelling) ← exponent
      return ([], power, spelling))
  let value := (Text.natValue? (whole ++ fraction)).getD 0
  match Binary64.ofDecimal? value (power - fraction.length) with
  | some x => return (Number.ofMagnitude x, whole ++ spelling)
  | none => mismatch

/-- Consumes a number without a sign, and gives it with its spelling. -/
def number : Reader (Number × List Char) :=
  orElse fractional do
    let ds ← digits
    let n := (Text.natValue? ds).getD 0
    if n < Nat.pow 2 64 then return (.integer n, ds) else mismatch

/-- Consumes a minus sign and the number after it, and gives that with its spelling. -/
def negativeNumber : Reader (Number × List Char) := do
  token "-"
  let space ← blanks false
  let (n, spelling) ← number
  return (n.neg, '-' :: space ++ spelling)

/-- Consumes a number without superfluous zeros that fits into 64 bits. -/
def plainIndex : Reader Nat := do
  if ← mark "0" then return 0
  else
    let n := (Text.natValue? (← digits)).getD 0
    if n < Nat.pow 2 64 then return n else mismatch

end Reader

end StackGraph.Hcl
