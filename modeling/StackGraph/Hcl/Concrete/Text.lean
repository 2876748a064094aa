import StackGraph.Hcl.Concrete
import StackGraph.Hcl.Indentation
import StackGraph.Hcl.Quoted
/-!
# The text of concrete syntax

How a text with interpolations is written between its delimiters: its literal pieces with their
markers doubled, its code as it was written. Strings in the code are quoted afresh.

Literal text is escaped while a quoted text is written, and a flag says so (`Writer`). Opening
quotes set it and closing quotes clear it, also those of a text within another one, so behind an
inner text the literal text of the outer one is not escaped. A heredoc whose indentation was removed
is written apart, then each of its lines is indented again.
-/

namespace StackGraph.Hcl.Concrete

/-- Characters to be written, given whether literal text is escaped, and whether it is
afterwards. -/
def Writer := Bool → List Char × Bool

namespace Writer

/-- Writes one after the other. -/
instance : Append Writer where
  append a b escaped :=
    let (s, escaped) := a escaped
    let (t, escaped) := b escaped
    (s ++ t, escaped)

/-- Writes characters as they are. -/
def chars (s : List Char) : Writer := fun escaped => (s, escaped)

/-- Writes a fixed text. -/
def token (s : String) : Writer := chars s.toList

/-- Writes literal text. -/
def literal (s : List Char) : Writer := fun escaped =>
  let s := doubleMarkers s
  (if escaped then s.flatMap escapeControl else s, escaped)

/-- Writes a text between quotes. -/
def quoted (text : Writer) : Writer := fun _ => ('"' :: (text true).1 ++ ['"'], false)

/-- Writes a text apart and then each of its lines behind `n` blanks. -/
def indented (n : Nat) (text : Writer) : Writer :=
  chars (Indentation.indent n (text false).1)

/-- The text on its own. -/
def run (text : Writer) : String := String.ofList (text false).1

end Writer

open Writer

/-- A string between quotes. -/
def quotedString (s : String) : List Char :=
  '"' :: (doubleMarkers s.toList).flatMap escapeControl ++ ['"']

/-- A name between its blanks. -/
def Word.text (w : Word) : List Char := w.before ++ w.name.toList ++ w.after

/-- Names with a separator between them. -/
def wordsText (separator : String) (words : List Word) : List Char :=
  separator.toList.intercalate (words.map Word.text)

/-- What stands before the closing bracket of a list or call. -/
def Tail.text (t : Tail) : List Char :=
  (if t.comma then [','] else []) ++ (if t.spread then "...".toList else []) ++ t.blank

namespace Marker

/-- A strip mark, if there is one. -/
def strip (marked : Bool) : List Char := if marked then ['~'] else []

/-- The start of a directive with its keyword. -/
def opening (m : Marker) (keyword : String) : List Char :=
  "%\x7b".toList ++ strip m.before ++ m.lead ++ keyword.toList ++ m.trail

/-- The end of an interpolation or directive. -/
def closing (m : Marker) : List Char := strip m.after ++ ['\x7d']

end Marker

mutual

/-- A term with its blanks. -/
def Term.written : Term → Writer
  | .mk before form after => chars before ++ form.written ++ chars after
termination_by structural t => t

/-- A form as it was written. -/
def Form.written : Form → Writer
  | .null => token "null"
  | .bool value => token (if value then "true" else "false")
  | .number _ text => chars text
  | .string value => chars (quotedString value)
  | .quoted pieces => quoted (writtenPieces pieces)
  | .heredoc delimiter (some n) pieces closing =>
    token "<<-" ++ token delimiter ++ token "\n" ++ indented n (writtenPieces pieces) ++
      chars closing ++ token delimiter
  | .heredoc delimiter none pieces closing =>
    token "<<" ++ token delimiter ++ token "\n" ++ writtenPieces pieces ++
      chars closing ++ token delimiter
  | .list items tail => token "[" ++ writtenTerms items ++ chars tail.text ++ token "]"
  | .object entries trailing =>
    token "\x7b" ++ writtenEntries entries ++ chars trailing ++ token "\x7d"
  | .variable name => token name
  | .parens inner => token "(" ++ inner.written ++ token ")"
  | .call path args tail =>
    chars (wordsText "::" path) ++ token "(" ++ writtenTerms args ++ chars tail.text ++ token ")"
  | .attribute base before name => base.written ++ token "." ++ chars before ++ token name
  | .index base key => base.written ++ token "[" ++ key.written ++ token "]"
  | .position base before index =>
    base.written ++ token "." ++ chars before ++ token (toString index)
  | .splat base before after full =>
    base.written ++ token (if full then "[" else ".") ++ chars before ++ token "*" ++
      chars after ++ token (if full then "]" else "")
  | .unary op operand => chars [op.sign] ++ operand.written
  | .binary op left right => left.written ++ token op.text ++ right.written
  | .conditional condition yes no =>
    condition.written ++ token "?" ++ yes.written ++ token ":" ++ no.written
  | .forList lead names source value guard =>
    token "[" ++ chars lead ++ token "for" ++ chars (wordsText "," names) ++ token "in" ++
      source.written ++ token ":" ++ value.written ++ writtenGuard guard ++ token "]"
  | .forObject lead names source key value grouped guard =>
    token "\x7b" ++ chars lead ++ token "for" ++ chars (wordsText "," names) ++ token "in" ++
      source.written ++ token ":" ++ key.written ++ token "=>" ++ value.written ++
      chars ((grouped.map ("...".toList ++ ·)).getD []) ++ writtenGuard guard ++ token "\x7d"
termination_by structural f => f

/-- The condition at the end of a for expression. -/
def writtenGuard : Option Term → Writer
  | none => chars []
  | some guard => token "if" ++ guard.written
termination_by structural t => t

/-- Items or arguments with commas between them. -/
def writtenTerms : List Term → Writer
  | [] => chars []
  | [t] => t.written
  | t :: ts => t.written ++ token "," ++ writtenTerms ts
termination_by structural ts => ts

/-- The entries of an object. -/
def writtenEntries : List Entry → Writer
  | [] => chars []
  | e :: es => e.written ++ writtenEntries es
termination_by structural es => es

/-- An entry of an object with what separates it from the next one. -/
def Entry.written : Entry → Writer
  | .mk key sign value terminator =>
    key.written ++ chars [sign] ++ value.written ++ chars terminator.toList
termination_by structural e => e

/-- The pieces of a text. -/
def writtenPieces : List Piece → Writer
  | [] => chars []
  | p :: ps => p.written ++ writtenPieces ps
termination_by structural ps => ps

/-- A piece of a text. -/
def Piece.written : Piece → Writer
  | .literal text => literal text
  | .interpolation marker value =>
    token "$\x7b" ++ chars (Marker.strip marker.before) ++ value.written ++ chars marker.closing
  | .choice opening condition yes middle no closing =>
    chars (opening.opening "if") ++ condition.written ++ chars opening.closing ++
      writtenPieces yes ++
      chars ((middle.map fun m => m.opening "else" ++ m.closing).getD []) ++
      writtenPieces no ++ chars (closing.opening "endif") ++ chars closing.closing
  | .loop opening names source body closing =>
    chars (opening.opening "for") ++ chars (wordsText "," names) ++ token "in" ++
      source.written ++ chars opening.closing ++ writtenPieces body ++
      chars (closing.opening "endfor") ++ chars closing.closing
termination_by structural p => p

end

end StackGraph.Hcl.Concrete
