import StackGraph.Text.Basic
/-!
# Quoted text of the configuration language

How literal text is written between quotes. The two-character markers of an interpolation and of a
directive are doubled (`doubleMarkers`), so that they read back as plain text; then characters that
cannot stand between quotes become escape sequences.

`escapeChar` serves expressions that are written afresh, `escapeControl` strings inside an
interpolation that is kept as it was written; they differ only in the characters that become
numbered escapes.
-/

namespace StackGraph.Hcl

/-- Whether the text goes on with the opening brace of a marker. -/
def opensBrace : List Char → Bool
  | '\x7b' :: _ => true
  | _ => false

/-- Doubles the first character of each marker in text that follows a marker: a dollar or percent
sign takes the next character with it. -/
def doubleMarkersAfter : List Char → List Char
  | [] => []
  | c :: d :: rest =>
    if c = '$' ∨ c = '%' then
      if d = '\x7b' then c :: c :: d :: doubleMarkersAfter rest
      else c :: d :: doubleMarkersAfter rest
    else c :: doubleMarkersAfter (d :: rest)
  | [c] => [c]

/-- Doubles the first character of each marker. Text before the first marker is copied. -/
def doubleMarkers : List Char → List Char
  | [] => []
  | c :: rest =>
    if (c = '$' ∨ c = '%') ∧ opensBrace rest then doubleMarkersAfter (c :: rest)
    else c :: doubleMarkers rest

/-- The short escape sequences. -/
def shortEscape? : Char → Option (List Char)
  | '\x08' => some ['\\', 'b']
  | '\t' => some ['\\', 't']
  | '\n' => some ['\\', 'n']
  | '\x0c' => some ['\\', 'f']
  | '\r' => some ['\\', 'r']
  | '"' => some ['\\', '"']
  | '\\' => some ['\\', '\\']
  | _ => none

/-- A character between quotes of an expression that is written afresh: control characters below
the blank without a short sequence become numbered escapes in small letters. -/
def escapeChar (c : Char) : List Char :=
  (shortEscape? c).getD
    (if c.toNat < 32 then ['\\', 'u'] ++ Text.hex 4 c.toNat else [c])

/-- A character between quotes inside an interpolation that is kept as written: the control
characters of ASCII without a short sequence become numbered escapes in capital letters. -/
def escapeControl (c : Char) : List Char :=
  (shortEscape? c).getD
    (if c.toNat < 32 ∨ c.toNat = 127 then ['\\', 'u'] ++ Text.hexUpper 4 c.toNat else [c])

/-- A string written between quotes. -/
def quote (s : String) : String :=
  String.ofList ('"' :: (doubleMarkers s.toList).flatMap escapeChar ++ ['"'])

end StackGraph.Hcl
