import StackGraph.Text.Basic
import StackGraph.Toml.Value
/-!
# Numbers, truth values and times of TOML

The values that are written without quotes or brackets. Digits may have single underscores between
them. A decimal number has no needless zero in front; a number in another base has no sign. A date
is one of the calendar, and the seconds of a time may be left out. An integer fits into 128 bits,
with a sign or without.
-/

namespace StackGraph.Toml

/-- Digits without the underscores between them. -/
def digits? (isDigit : Char → Bool) (s : List Char) : Option (List Char) :=
  let groups := Text.splitOn (· == '_') s
  if groups.all fun g => !g.isEmpty && g.all isDigit then some groups.flatten else none

/-- The value of digits in a base. -/
def numberIn (base : Nat) (digits : List Char) : Nat :=
  digits.foldl (fun n c => base * n + (Text.hexDigit? c).getD 0) 0

/-- Whether a text may be a sign, and what follows it. -/
def sign (s : List Char) : Bool × List Char :=
  match s with
  | '-' :: rest => (true, rest)
  | '+' :: rest => (false, rest)
  | _ => (false, s)

/-- The digits of a decimal number before its point. -/
def wholeDigits? (s : List Char) : Option (List Char) := do
  let digits ← digits? Char.isDigit s
  if digits.head? == some '0' && digits.length != 1 then none else some digits

/-- The digits behind a point, if there is one. -/
def fraction? (s : List Char) : Option (List Char × List Char) :=
  match s with
  | '.' :: rest => do
    let run := rest.takeWhile fun c => c.isDigit || c == '_'
    some (← digits? Char.isDigit run, rest.drop run.length)
  | _ => some ([], s)

/-- The exponent at the end of a number, if there is one. -/
def exponent? (s : List Char) : Option Int :=
  match s with
  | [] => some 0
  | c :: rest =>
    if c = 'e' ∨ c = 'E' then do
      let (negative, rest) := sign rest
      let value := numberIn 10 (← digits? Char.isDigit rest)
      some (if negative then -Int.ofNat value else Int.ofNat value)
    else none

/-- An integer, unless it is too large. -/
def integer? (value : Int) : Option Value :=
  if -Int.pow 2 127 ≤ value ∧ value < Int.pow 2 128 then some (.integer value) else none

/-- A decimal number. A fraction or an exponent makes it a float, which must be finite. -/
def decimal? (s : List Char) : Option Value := do
  let (negative, body) := sign s
  let run := body.takeWhile fun c => c.isDigit || c == '_'
  let whole ← wholeDigits? run
  let tail := body.drop run.length
  if tail.isEmpty then
    let value := Int.ofNat (numberIn 10 whole)
    integer? (if negative then -value else value)
  else
    let (fraction, tail) ← fraction? tail
    let exponent ← exponent? tail
    let magnitude ← Binary64.ofDecimal? (numberIn 10 (whole ++ fraction))
      (exponent - Int.ofNat fraction.length)
    some (.float (if negative then magnitude.neg else magnitude))

/-- A number in another base. -/
def based? (s : List Char) : Option Value :=
  let read (base : Nat) (digits : List Char) : Option Value :=
    (digits? (fun c => (Text.hexDigit? c).any (· < base)) digits).bind fun ds =>
      integer? (Int.ofNat (numberIn base ds))
  match s with
  | '0' :: 'x' :: rest => read 16 rest
  | '0' :: 'o' :: rest => read 8 rest
  | '0' :: 'b' :: rest => read 2 rest
  | _ => none

/-- One of the floats that have a name. -/
def namedFloat? (s : List Char) : Option Value :=
  let (negative, body) := sign s
  let value (x : Binary64) : Value := .float (if negative then x.neg else x)
  if body = "inf".toList then some (value ⟨0x7ff0000000000000⟩)
  else if body = "nan".toList then some (value ⟨0x7ff8000000000000⟩)
  else none

/-- A number of exactly `width` digits below a limit. -/
def field? (width limit : Nat) (s : List Char) : Option Nat :=
  if s.length = width then (Text.natValue? s).filter (· < limit) else none

/-- The number of days of a month. -/
def daysOf (year month : Nat) : Nat :=
  if month = 2 then if year % 4 = 0 ∧ (year % 100 ≠ 0 ∨ year % 400 = 0) then 29 else 28
  else if month = 4 ∨ month = 6 ∨ month = 9 ∨ month = 11 then 30
  else 31

/-- Whether a text is a date. -/
def isDate (s : List Char) : Bool :=
  match Text.splitOn (· == '-') s with
  | [y, m, d] =>
    match field? 4 10000 y, field? 2 13 m, field? 2 32 d with
    | some year, some month, some day => 0 < month && 0 < day && day ≤ daysOf year month
    | _, _, _ => false
  | _ => false

/-- Whether a text is the seconds of a time, with a fraction or without. -/
def isSecond (s : List Char) : Bool :=
  match Text.splitOn (· == '.') s with
  | [whole] => (field? 2 61 whole).isSome
  | [whole, fraction] =>
    (field? 2 61 whole).isSome && !fraction.isEmpty && fraction.all Char.isDigit
  | _ => false

/-- Whether a text is a time of the day. -/
def isClock (s : List Char) : Bool :=
  match Text.splitOn (· == ':') s with
  | [h, m] => (field? 2 24 h).isSome && (field? 2 60 m).isSome
  | [h, m, second] => (field? 2 24 h).isSome && (field? 2 60 m).isSome && isSecond second
  | _ => false

/-- Whether a text is a time of the day with a distance from universal time, or without. -/
def isZonedClock (s : List Char) : Bool :=
  let clock := s.takeWhile fun c => c.isDigit || c == ':' || c == '.'
  let offset := match s.drop clock.length with
    | [] => true
    | [z] => z == 'Z' || z == 'z'
    | c :: rest =>
      (c == '+' || c == '-') &&
        match Text.splitOn (· == ':') rest with
        | [h, m] => (field? 2 24 h).isSome && (field? 2 60 m).isSome
        | _ => false
  isClock clock && offset

/-- Whether a text is a date, a time or both. -/
def isTime (s : List Char) : Bool :=
  isClock s || isDate s ||
    (isDate (s.take 10) &&
      match s.drop 10 with
      | c :: rest => (c == 'T' || c == 't' || c == ' ') && isZonedClock rest
      | [] => false)

/-- The value that a text without quotes or brackets denotes. -/
def scalar? (s : List Char) : Option Value :=
  if s = "true".toList then some (.bool true)
  else if s = "false".toList then some (.bool false)
  else if isTime s then some .time
  else namedFloat? s <|> based? s <|> decimal? s

end StackGraph.Toml
