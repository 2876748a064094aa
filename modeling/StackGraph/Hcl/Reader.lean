import StackGraph.Hcl.Concrete.Abstraction
import StackGraph.Hcl.Expression
/-!
# Reading the configuration language

From text to `Body`. The items of a body stand on lines of their own; a block may stand on one line
with at most one attribute. An attribute stands at most once in a body.

Recursion goes down on a depth that is computed from the length of the text; `Body.read?` hides it.
A text is refused as a whole if any part of it does not fit the grammar.
-/

namespace StackGraph.Hcl

namespace Reader

/-- Consumes the rest of an attribute's line: blanks, a comment, and the line break unless the text
ends. -/
def lineEnd : Reader Unit := do
  let _ ← blanks false
  let _ ← lineComment
  if ← atEnd then pure () else lineBreak

/-- Consumes a label: a name, or a quoted string without interpolation. -/
def label : Reader String := do
  if ← ahead "\"" then
    token "\""
    match quotedRun false (← rest) with
    | (text, '"' :: rest) =>
      goTo rest
      return String.ofList text
    | _ => mismatch
  else name

/-- Consumes the labels of a block and the blanks after them. -/
def labels : Nat → List String → Reader (List String)
  | 0, _ => mismatch
  | n + 1, done => do
    let _ ← blanks false
    if (← ahead "\"") || (← nameAhead) then labels n (done ++ [← label]) else return done

/-- Consumes an attribute after its name. -/
def attributeValue (n : Nat) : Reader Expr := do
  token "="
  let _ ← blanks false
  return (← expr .line n).toExpr

/-- The names of the attributes among some items. -/
def attributeNames (items : List Item) : List String :=
  items.filterMap fun
    | .attribute name _ => some name
    | .block _ => none

/-- Consumes the body of a block that stands on one line, up to its closing brace. -/
def lineBody (n : Nat) : Reader Body := do
  let _ ← blanks false
  if ← nameAhead then
    let key ← name
    let _ ← blanks false
    let value ← attributeValue n
    let _ ← blanks false
    token "\x7d"
    return [.attribute key value]
  else
    token "\x7d"
    return []

mutual

/-- Consumes the items of a body, given those before them last first. An attribute stands at most
once in a body. -/
def body : Nat → List Item → Reader Body
  | 0, _ => mismatch
  | n + 1, done => do
    let _ ← blanks true
    if ← nameAhead then
      let key ← name
      let _ ← blanks false
      if ← ahead "=" then
        if (attributeNames done).contains key then mismatch
        let value ← attributeValue n
        lineEnd
        body n (.attribute key value :: done)
      else
        let labels ← labels n []
        token "\x7b"
        let inner ← blockBody n
        lineEnd
        body n (.block (.mk key labels inner) :: done)
    else return done.reverse

/-- Consumes the body of a block after its opening brace, and the closing brace. -/
def blockBody : Nat → Reader Body
  | 0 => mismatch
  | n + 1 =>
    orElse (lineBody n) do
      let _ ← blanks false
      let _ ← lineComment
      lineBreak
      let inner ← body n []
      token "\x7d"
      return inner

end

end Reader

/-- The body that a text denotes, if it fits the grammar. -/
def Body.read? (text : String) : Option Body :=
  let chars := text.toList
  let whole : Reader Body := do
    let body ← Reader.body (8 * chars.length + 32) []
    if ← Reader.atEnd then return body else Reader.mismatch
  (whole chars).toOption.map Prod.fst

end StackGraph.Hcl
