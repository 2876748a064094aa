import StackGraph.Text.Basic
/-!
# Literal text of templates

The literal parts of quoted strings, of heredocs and of the bodies of template directives, up to the
code between them. Doubled markers stand for plain ones; the escape sequences of quoted strings are
resolved.

Between quotes an escape sequence that stands for nothing is dropped with its first character where
text comes before it, and the text goes on in a new part (`quotedRun`).
-/

namespace StackGraph.Hcl

namespace Reader

/-- Reads literal text between quotes up to the closing quote, the next marker or an escape sequence
that stands for nothing. Of the latter the backslash and the character after it are dropped if text
comes before them, as `begun` tells; otherwise the text stays in front of it. -/
def quotedRun (begun : Bool) : List Char → List Char × List Char
  | [] => ([], [])
  | '$' :: '$' :: '\x7b' :: r => let (t, r) := quotedRun true r; ('$' :: '\x7b' :: t, r)
  | '%' :: '%' :: '\x7b' :: r => let (t, r) := quotedRun true r; ('%' :: '\x7b' :: t, r)
  | '$' :: '\x7b' :: r => ([], '$' :: '\x7b' :: r)
  | '%' :: '\x7b' :: r => ([], '%' :: '\x7b' :: r)
  | '"' :: r => ([], '"' :: r)
  | '\\' :: 'n' :: r => let (t, r) := quotedRun true r; ('\n' :: t, r)
  | '\\' :: 'r' :: r => let (t, r) := quotedRun true r; ('\r' :: t, r)
  | '\\' :: 't' :: r => let (t, r) := quotedRun true r; ('\t' :: t, r)
  | '\\' :: 'b' :: r => let (t, r) := quotedRun true r; ('\x08' :: t, r)
  | '\\' :: 'f' :: r => let (t, r) := quotedRun true r; ('\x0c' :: t, r)
  | '\\' :: '"' :: r => let (t, r) := quotedRun true r; ('"' :: t, r)
  | '\\' :: '\\' :: r => let (t, r) := quotedRun true r; ('\\' :: t, r)
  | '\\' :: '/' :: r => let (t, r) := quotedRun true r; ('/' :: t, r)
  | '\\' :: 'u' :: r =>
    match r with
    | a :: b :: c :: d :: r' =>
      match Text.hexValue? [a, b, c, d] >>= Text.charOf? with
      | some char => let (t, r) := quotedRun true r'; (char :: t, r)
      | none => if begun then ([], r) else ([], '\\' :: 'u' :: r)
    | _ => if begun then ([], r) else ([], '\\' :: 'u' :: r)
  | '\\' :: 'U' :: r =>
    match r with
    | a :: b :: c :: d :: e :: f :: g :: h :: r' =>
      match Text.hexValue? [a, b, c, d, e, f, g, h] >>= Text.charOf? with
      | some char => let (t, r) := quotedRun true r'; (char :: t, r)
      | none => if begun then ([], r) else ([], '\\' :: 'U' :: r)
    | _ => if begun then ([], r) else ([], '\\' :: 'U' :: r)
  | '\\' :: c :: r => if begun then ([], r) else ([], '\\' :: c :: r)
  | c :: r => let (t, r) := quotedRun true r; (c :: t, r)

/-- Reads raw text up to the next marker or the end. -/
def rawLiteral : List Char → List Char × List Char
  | [] => ([], [])
  | '$' :: '$' :: '\x7b' :: r => let (t, r) := rawLiteral r; ('$' :: '\x7b' :: t, r)
  | '%' :: '%' :: '\x7b' :: r => let (t, r) := rawLiteral r; ('%' :: '\x7b' :: t, r)
  | '$' :: '\x7b' :: r => ([], '$' :: '\x7b' :: r)
  | '%' :: '\x7b' :: r => ([], '%' :: '\x7b' :: r)
  | c :: r => let (t, r) := rawLiteral r; (c :: t, r)

/-- Whether a heredoc ends here: blanks and then its delimiter. -/
def closes (delimiter r : List Char) : Bool :=
  Text.hasStart delimiter (r.dropWhile fun c => c = ' ' ∨ c = '\t')

/-- Reads the text of a heredoc up to the next marker or its last line break, after which the
heredoc ends. The result says which of the two it was. -/
def heredocLiteral (delimiter : List Char) : List Char → Option (List Char × Bool × List Char)
  | [] => none
  | '$' :: '$' :: '\x7b' :: r => do
    let (t, e) ← heredocLiteral delimiter r
    return ('$' :: '\x7b' :: t, e)
  | '%' :: '%' :: '\x7b' :: r => do
    let (t, e) ← heredocLiteral delimiter r
    return ('%' :: '\x7b' :: t, e)
  | '$' :: '\x7b' :: r => some ([], false, '$' :: '\x7b' :: r)
  | '%' :: '\x7b' :: r => some ([], false, '%' :: '\x7b' :: r)
  | c :: r =>
    if c = '\n' ∧ closes delimiter r then some (['\n'], true, r)
    else do
      let (t, e) ← heredocLiteral delimiter r
      return (c :: t, e)

end Reader

end StackGraph.Hcl
