import StackGraph.Text.Basic
/-!
# Numbers in settings

Natural numbers below two to the power of 64, as they are written on a command line or in an
environment variable: decimal digits, with a plus sign in front or without.
-/

namespace StackGraph.Text

/-- The number of possible values of a word. -/
def wordCount : Nat := Nat.pow 2 64

/-- The number that some digits with an optional plus sign denote, if it fits in a word. -/
def word? (s : List Char) : Option Nat :=
  let digits := match s with
    | '+' :: rest => rest
    | _ => s
  (natValue? digits).filter (· < wordCount)

end StackGraph.Text
