import StackGraph.Text.Basic
/-!
# Points in time

Points in time to the nanosecond, written as RFC 3339 text in universal time. A fraction is written
with three, six or nine digits, as many as it needs, and left out if it is zero.

Reading takes more than what is written: numbers need no leading zeros, years may have a sign and
then any number of digits, blanks may stand between the parts, and any distance from universal time
below a day may follow.
-/

namespace StackGraph

/-- A point in time. -/
structure Timestamp where
  /-- Seconds since the start of 1970, in universal time. -/
  seconds : Int
  /-- Nanoseconds after that; from a thousand million on within a leap second. -/
  nanos : Nat
deriving DecidableEq, Repr

namespace Timestamp

/-- The number of days from the start of 1970 to a date of the Gregorian calendar. Years are counted
from March, so that a leap day ends its year. -/
def daysOfDate (year month day : Int) : Int :=
  let y := if month ≤ 2 then year - 1 else year
  let era := y / 400
  let yearOfEra := y - era * 400
  let dayOfYear := (153 * ((month + 9) % 12) + 2) / 5 + day - 1
  era * 146097 + yearOfEra * 365 + yearOfEra / 4 - yearOfEra / 100 + dayOfYear - 719468

/-- The date of a day, as year, month and day. -/
def dateOfDays (days : Int) : Int × Int × Int :=
  let z := days + 719468
  let era := z / 146097
  let dayOfEra := z - era * 146097
  let yearOfEra :=
    (dayOfEra - dayOfEra / 1460 + dayOfEra / 36524 - dayOfEra / 146096) / 365
  let dayOfYear := dayOfEra - (365 * yearOfEra + yearOfEra / 4 - yearOfEra / 100)
  let m := (5 * dayOfYear + 2) / 153
  let month := if m < 10 then m + 3 else m - 9
  let year := yearOfEra + era * 400 + (if month ≤ 2 then 1 else 0)
  (year, month, dayOfYear - (153 * m + 2) / 5 + 1)

/-- A number with leading zeros. -/
def padded (width n : Nat) : String :=
  let digits := Nat.toDigits 10 n
  String.ofList (List.replicate (width - digits.length) '0' ++ digits)

/-- The fraction of a second with its point. -/
def fraction (nanos : Nat) : String :=
  let n := nanos % 1000000000
  if n = 0 then ""
  else if n % 1000000 = 0 then "." ++ padded 3 (n / 1000000)
  else if n % 1000 = 0 then "." ++ padded 6 (n / 1000)
  else "." ++ padded 9 n

/-- A year with at least four digits, and with a sign unless it has four and none is needed. -/
def yearText (year : Int) : String :=
  (if year < 0 then "-" else if year < 10000 then "" else "+") ++ padded 4 year.natAbs

/-- The text of a point in time, with the given mark for universal time at its end. -/
def text (zone : String) (t : Timestamp) : String :=
  let (year, month, day) := dateOfDays (t.seconds / 86400)
  let rest := (t.seconds % 86400).toNat
  let second := rest % 60 + t.nanos / 1000000000
  yearText year ++ "-" ++ padded 2 month.toNat ++ "-" ++ padded 2 day.toNat ++ "T" ++
    padded 2 (rest / 3600) ++ ":" ++ padded 2 (rest / 60 % 60) ++ ":" ++ padded 2 second ++
    fraction t.nanos ++ zone

/-! ### Reading -/

/-- A text without the blanks at its start. -/
def skipBlanks (s : List Char) : List Char := s.dropWhile Text.isBlank

/-- A number of at least one digit, of which at most `most` are taken, and what is left. -/
def number? (most : Nat) (s : List Char) : Option (Nat × List Char) :=
  let digits := (s.takeWhile Char.isDigit).take most
  if digits.isEmpty then none
  else (Text.natValue? digits).map fun n => (n, s.drop digits.length)

/-- A year of at most four digits, or of any number of them behind a sign, and what is left. -/
def year? (s : List Char) : Option (Int × List Char) :=
  match skipBlanks s with
  | '-' :: rest => (number? rest.length rest).map fun (n, rest) => (-Int.ofNat n, rest)
  | '+' :: rest => (number? rest.length rest).map fun (n, rest) => (Int.ofNat n, rest)
  | rest => (number? 4 rest).map fun (n, rest) => (Int.ofNat n, rest)

/-- One of the further numbers of a date or time, behind a separator. Blanks may stand around the
separator. -/
def further? (separator : Char) (s : List Char) : Option (Nat × List Char) :=
  match skipBlanks s with
  | c :: rest => if c = separator then number? 2 (skipBlanks rest) else none
  | [] => none

/-- The nanoseconds that the digits behind a point stand for; further digits than nine are left
out. -/
def nanos? : List Char → Option (Nat × List Char)
  | '.' :: rest =>
    let digits := rest.takeWhile Char.isDigit
    if digits.isEmpty then none
    else
      (Text.natValue? ((digits ++ List.replicate 9 '0').take 9)).map fun n =>
        (n, rest.dropWhile Char.isDigit)
  | rest => some (0, rest)

/-- The distance from universal time behind its sign, in seconds, and what is left: two digits for
the hours and two for the minutes, with or without colons and blanks between them. -/
def distance? : List Char → Option (Nat × List Char)
  | a :: b :: rest => do
    let hours ← Text.natValue? [a, b]
    match rest.dropWhile fun c => c = ':' || Text.isBlank c with
    | c :: d :: rest =>
      let minutes ← Text.natValue? [c, d]
      if minutes < 60 ∧ hours < 24 then some (hours * 3600 + minutes * 60, rest) else none
    | _ => none
  | _ => none

/-- The distance from universal time at the end of a text, in seconds. -/
def offset? (s : List Char) : Option Int :=
  let ofRest (rest : List Char) (n : Int) : Option Int :=
    if (skipBlanks rest).isEmpty then some n else none
  match s with
  | 'Z' :: rest | 'z' :: rest => ofRest rest 0
  | '+' :: rest => do
    let (n, rest) ← distance? rest
    ofRest rest n
  | '-' :: rest | '\u2212' :: rest => do
    let (n, rest) ← distance? rest
    ofRest rest (-n)
  | _ => if (s.take 3).map Char.toUpper = "UTC".toList then ofRest (s.drop 3) 0 else none

/-- Whether points in time may lie in a year. -/
def isYear (year : Int) : Bool := -262143 ≤ year && year ≤ 262142

/-- Whether a date and a time of day exist. A minute may have a leap second. -/
def isReal (year : Int) (month day hour minute second : Nat) : Bool :=
  let date : Int × Int × Int := (year, month, day)
  isYear year && dateOfDays (daysOfDate year month day) == date &&
    hour < 24 && minute < 60 && second ≤ 60

/-- The point in time that a text denotes. A letter or a blank stands between date and time. The
year must be one in universal time, too. -/
def read? (text : String) : Option Timestamp := do
  let (year, s) ← year? text.toList
  let (month, s) ← further? '-' s
  let (day, s) ← further? '-' s
  let s ← match s with
    | c :: rest => if c ∈ ['T', 't', ' '] then some rest else none
    | [] => none
  let (hour, s) ← number? 2 (skipBlanks s)
  let (minute, s) ← further? ':' s
  let (second, s) ← further? ':' s
  let (nanos, s) ← nanos? s
  let offset ← offset? (skipBlanks s)
  if isReal year month day hour minute second then
    let days := daysOfDate year month day
    let leap := second / 60
    let seconds := days * 86400 + Int.ofNat (hour * 3600 + minute * 60 + (second - leap)) - offset
    if isYear (dateOfDays (seconds / 86400)).1 then some ⟨seconds, nanos + leap * 1000000000⟩
    else none
  else none

end Timestamp

end StackGraph
