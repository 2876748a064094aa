import StackGraph.Hcl.Continuation
import StackGraph.Hcl.Indentation
import StackGraph.Hcl.Template
/-!
# Reading expressions

A recursive-descent reader of expressions and of the code in templates. Every reader leaves the
blanks behind what it consumes, since only what comes next decides whether they belong to the
expression; each enclosing rule takes them as it allows.

Behind its first sign a construct has to be complete, and a term has to start with a sign that some
term starts with; otherwise the text is malformed. Where a text only ends too early, or something in
it is no term after all, it is no more than a mismatch. The difference matters to a heredoc, whose
text may be empty if it cannot be read as one that ends later.

Recursion goes down on a depth that the caller computes from the length of the text: each reader
takes at least one character between any two visits to the same rule.
-/

namespace StackGraph.Hcl

open Concrete

namespace Reader

/-- Whether a for expression starts here, after its bracket and blanks. -/
def forAhead : Reader Bool := do
  match ← rest with
  | 'f' :: 'o' :: 'r' :: c :: _ => return c == ' ' || c == '\t' || c == '\n' || c == '#' || c == '/'
  | _ => return false

/-- Consumes the further namespaces and the name of a function, given the first name and the blanks
before it. -/
def callPath (p : Place) : Nat → Blank → String → List Word → Reader (List Word)
  | 0, _, _, _ => mismatch
  | n + 1, before, first, done => do
    let after ← blanks p.lines
    let done := done ++ [⟨before, first, after⟩]
    if ← mark "::" then
      let before ← blanks p.lines
      callPath p n before (← required name) done
    else return done

/-- Consumes one or two names with the blanks around them. -/
def forNames : Reader (List Word) := do
  let before ← blanks true
  let first ← required name
  let after ← blanks true
  if ← mark "," then
    let before' ← blanks true
    let second ← required name
    return [⟨before, first, after⟩, ⟨before', second, ← blanks true⟩]
  else return [⟨before, first, after⟩]

/-- The unary operator that starts here, if one does. A minus sign before a number belongs to the
number. -/
def unaryOpAhead : Reader (Option UnaryOp) := do
  if ← ahead "!" then return some .not
  else if ← ahead "-" then
    if ← accepts negativeNumber then return none else return some .neg
  else return none

/-- Consumes unary operators and the blanks after them, given those before. Only the last one
counts; what stands between the first one and the operand is given with it. -/
def unaryOps : Nat → Option (UnaryOp × Blank) → Reader (Option (UnaryOp × Blank))
  | 0, _ => mismatch
  | n + 1, last? => do
    match ← unaryOpAhead with
    | none => return last?
    | some op =>
      let sign ← take 1
      let space ← blanks false
      unaryOps n (some (op, match last? with
        | some (_, between) => between ++ sign ++ space
        | none => space))

/-- Whether a name that was just read is that of a function. -/
def callAhead (p : Place) : Reader Bool :=
  accepts do
    let _ ← blanks p.lines
    if ← ahead "(" then pure () else token "::"

/-- Consumes a term with the blanks around it, line breaks included. -/
def decorated (r : Reader Term) : Reader Term := do
  let before ← blanks true
  let term ← r
  return term.between before (← blanks true)

/-- Whether a string, a heredoc or the body of a directive goes on with an interpolation. -/
def interpolationAhead : Reader Bool := ahead "$\x7b"

/-- Consumes the start of a directive up to its keyword: its strip mark and the blanks before the
keyword. -/
def directiveStart (keyword : String) : Reader (Bool × Blank) := do
  token "%\x7b"
  let before ← mark "~"
  let lead ← blanks true
  token keyword
  return (before, lead)

/-- Whether a directive with this keyword starts here. -/
def directiveAhead (keyword : String) : Reader Bool := accepts (directiveStart keyword)

/-- Whether code that may stand in a template starts here. -/
def codeAhead : Reader Bool := do
  return (← interpolationAhead) || (← directiveAhead "if") || (← directiveAhead "for")

/-- Consumes the strip mark and the brace that an interpolation or a directive ends with. -/
def codeEnd : Reader Bool := do
  let after ← mark "~"
  required (token "\x7d")
  return after

/-- Consumes a directive without operands. -/
def bareDirective (keyword : String) : Reader Marker := do
  let (before, lead) ← directiveStart keyword
  let trail ← blanks true
  return ⟨before, lead, trail, ← codeEnd⟩

/-- Whether the first line of a heredoc starts with its delimiter. -/
def delimiterAhead (delimiter : String) : Reader Bool := do
  return closes delimiter.toList (← rest)

/-- The form that the pieces between two quotes are: a plain string, unless there are several or
there is code. -/
def stringForm : List Piece → Form
  | [] => .string ""
  | [.literal text] => .string (String.ofList text)
  | pieces => .quoted pieces

/-- The form of a heredoc. Its indentation is removed if `stripped` is set. -/
def heredocForm (delimiter : String) (stripped : Bool) (pieces : List Piece) (closing : Blank) :
    Form :=
  match if stripped then Piece.dedent? pieces else none with
  | some (n, pieces) => .heredoc delimiter (some n) pieces closing
  | none => .heredoc delimiter none pieces closing

/-- Some pieces with a literal in front, unless that is empty. -/
def withLiteral (text : List Char) (pieces : List Piece) : List Piece :=
  if text.isEmpty then pieces else .literal text :: pieces

mutual

/-- Consumes an expression. Blanks after it are left. Of unary operators in a row only the last
counts; what stands between the first one and the operand moves in front of it. -/
def expr (p : Place) : Nat → Reader Term
  | 0 => mismatch
  | n + 1 => do
    let op? ← unaryOps n none
    let (operand, opened) ← primary p n
    let base := match op? with
      | some (op, between) => .mk between (.unary op operand) []
      | none => operand
    let p := { p with lines := p.lines || opened }
    let left ← traversals p true n base
    match ← continuation p with
    | some (.binary op size) =>
      let left := left.followedBy (← blanks p.lines)
      let _ ← take size
      let before ← blanks p.lines
      let right ← expr p.rightOperand n
      branches p { p with conditional := false } n
        (Form.binary op left (right.precededBy before)).term
    | _ => branches p p n left

/-- Consumes the branches of a conditional, if there are some behind a condition. -/
def branches (p branch : Place) : Nat → Term → Reader Term
  | 0, _ => mismatch
  | n + 1, condition => do
    match ← continuation p with
    | some .conditional =>
      let condition := condition.followedBy (← blanks p.lines)
      token "?"
      let before ← blanks p.lines
      let yes ← expr branch n
      let yes := yes.between before (← blanks p.lines)
      required (token ":")
      let before ← blanks p.lines
      let no ← expr branch n
      return (Form.conditional condition yes (no.precededBy before)).term
    | _ => return condition

/-- Consumes attribute accesses, indices and splats. Blanks between two of them are dropped. -/
def traversals (p : Place) (first : Bool) : Nat → Term → Reader Term
  | 0, _ => mismatch
  | n + 1, base => do
    match ← continuation p with
    | some .traversal =>
      let space ← blanks p.lines
      let base := if first then base.followedBy space else base
      if ← mark "." then
        let before ← blanks true
        if ← mark "*" then
          traversals p false n (Form.splat base before [] false).term
        else if (← peek).any Char.isDigit then
          traversals p false n (Form.position base before (← plainIndex)).term
        else if ← atEnd then mismatch
        else traversals p false n (Form.attribute base before (← required name)).term
      else
        token "["
        let before ← blanks true
        if ← mark "*" then
          let after ← blanks true
          required (token "]")
          traversals p false n (Form.splat base before after true).term
        else
          let key ← expr .free n
          let key := key.between before (← blanks true)
          required (token "]")
          traversals p false n (Form.index base key).term
    | _ => return base

/-- Consumes a term without operators and traversals. The flag tells whether line breaks are blanks
behind it. -/
def primary (p : Place) : Nat → Reader (Term × Bool)
  | 0 => mismatch
  | n + 1 => do
    match ← peek with
    | some '"' =>
      token "\""
      let pieces ← stringPieces n
      token "\""
      return ((stringForm pieces).term, false)
    | some '[' =>
      token "["
      let lead ← blanks true
      if ← forAhead then
        let (names, source) ← forIntro n
        let value ← decorated (expr p.item n)
        let guard ← forGuard p n
        required (token "]")
        return ((Form.forList lead names source value guard).term, true)
      else
        let (items, tail) ← required (items p.item n lead [])
        return ((Form.list items tail).term, true)
    | some '\x7b' =>
      token "\x7b"
      let lead ← blanks true
      if ← forAhead then
        let (names, source) ← forIntro n
        let key ← decorated (expr .line n)
        required (token "=>")
        let value ← decorated (expr .line n)
        let grouped ← if ← mark "..." then some <$> blanks true else pure none
        let guard ← forGuard p n
        required (token "\x7d")
        return (match guard with
          | some _ => (Form.forObject lead names source key value grouped guard).term
          | none =>
            .mk [] (.forObject lead names source key value (grouped.map fun _ => []) none)
              (grouped.getD []), true)
      else
        let (entries, trailing) ← entries n lead []
        return ((Form.object entries trailing).term, false)
    | some '(' =>
      token "("
      let inner ← decorated (expr .free n)
      required (token ")")
      return ((Form.parens inner).term, false)
    | some '<' => return ((← heredoc n).term, false)
    | some '-' =>
      let (value, spelling) ← negativeNumber
      return ((Form.number value spelling).term, false)
    | some c =>
      if c.isDigit then
        let (value, spelling) ← number
        return ((Form.number value spelling).term, false)
      else
        let first ← required name
        if ← callAhead p then
          let path ← callPath p n [] first []
          required (token "(")
          let lead ← blanks true
          let (args, tail) ← required (arguments p.item n lead [])
          return ((Form.call path args tail).term, true)
        else
          return ((match first with
            | "null" => Form.null
            | "true" => .bool true
            | "false" => .bool false
            | _ => .variable first).term, false)
    | none => mismatch

/-- Consumes the items of a list and its closing bracket, given the blanks before them. -/
def items (p : Place) : Nat → Blank → List Term → Reader (List Term × Tail)
  | 0, _, _ => mismatch
  | n + 1, before, done => do
    if ← mark "]" then return (done.reverse, ⟨!done.isEmpty, false, before⟩)
    else
      let item ← expr p n
      let done := item.between before (← blanks true) :: done
      if ← mark "," then items p n (← blanks true) done
      else
        token "]"
        return (done.reverse, ⟨false, false, []⟩)

/-- Consumes the arguments of a call and its closing parenthesis, given the blanks before them. -/
def arguments (p : Place) : Nat → Blank → List Term → Reader (List Term × Tail)
  | 0, _, _ => mismatch
  | n + 1, before, done => do
    if ← mark ")" then return (done.reverse, ⟨!done.isEmpty, false, before⟩)
    else
      let argument ← expr p n
      let done := argument.between before (← blanks true) :: done
      if ← mark "," then arguments p n (← blanks true) done
      else
        let spread ← mark "..."
        let blank ← if spread then blanks true else pure []
        token ")"
        return (done.reverse, ⟨false, spread, blank⟩)

/-- Consumes the entries of an object and its closing brace, given the blanks before them. A comma
or a line break separates two entries. -/
def entries : Nat → Blank → List Concrete.Entry → Reader (List Concrete.Entry × Blank)
  | 0, _, _ => mismatch
  | n + 1, before, done => do
    if ← mark "\x7d" then return (done, before)
    else
      let key ← expr .line n
      let key := key.between before (← blanks false)
      let sign ← if ← mark "=" then pure '=' else if ← mark ":" then pure ':' else unexpected
      let before ← blanks false
      let value ← expr .line n
      let after ← blanks false
      let value := value.between before (after ++ (← lineComment))
      if ← mark "\x7d" then return (Concrete.Entry.insert done (.mk key sign value none), [])
      else
        let terminator ← if ← mark "," then pure ',' else
          orElse (do lineBreak; return '\n') unexpected
        entries n (← blanks true) (Concrete.Entry.insert done (.mk key sign value terminator))

/-- Consumes a for expression up to its colon: the names it binds and what it runs over. -/
def forIntro : Nat → Reader (List Word × Term)
  | 0 => mismatch
  | n + 1 => do
    token "for"
    let names ← forNames
    required (token "in")
    let source ← decorated (expr .line n)
    required (token ":")
    return (names, source)

/-- Consumes the condition of a for expression, if there is one. -/
def forGuard (p : Place) : Nat → Reader (Option Term)
  | 0 => mismatch
  | n + 1 => do
    if ← mark "if" then return some (← required (decorated (expr p.item n))) else return none

/-- Consumes the pieces of a quoted string up to its closing quote. -/
def stringPieces : Nat → Reader (List Piece)
  | 0 => mismatch
  | n + 1 => do
    let (text, rest) := quotedRun false (← rest)
    goTo rest
    if ← ahead "\"" then return withLiteral text []
    else if !text.isEmpty then return .literal text :: (← stringPieces n)
    else if ← ahead "\\" then malformed
    else
      let code ← code n
      return code :: (← stringPieces n)

/-- Consumes a heredoc. Its text is empty if the delimiter starts the first line and no later
one. -/
def heredoc : Nat → Reader Form
  | 0 => mismatch
  | n + 1 => do
    token "<<"
    let stripped ← mark "-"
    let delimiter ← required name
    required lineBreak
    let pieces ← orElse (heredocPieces n delimiter.toList) do
      if ← delimiterAhead delimiter then return [] else mismatch
    let closing ← blanks false
    token delimiter
    return heredocForm delimiter stripped pieces closing

/-- Consumes the pieces of a heredoc up to the line of its delimiter. -/
def heredocPieces : Nat → List Char → Reader (List Piece)
  | 0, _ => mismatch
  | n + 1, delimiter => do
    match heredocLiteral delimiter (← rest) with
    | none => mismatch
    | some (text, ended, rest) =>
      goTo rest
      if ended then return withLiteral text []
      else
        let code ← code n
        return withLiteral text (code :: (← heredocPieces n delimiter))

/-- Consumes the body of a directive up to the directive that ends it. Its literal text is raw. -/
def template : Nat → Reader (List Piece)
  | 0 => mismatch
  | n + 1 => do
    let (text, rest) := rawLiteral (← rest)
    goTo rest
    if ← codeAhead then
      let code ← code n
      return withLiteral text (code :: (← template n))
    else return withLiteral text []

/-- Consumes an interpolation, or a directive with its body. -/
def code : Nat → Reader Piece
  | 0 => mismatch
  | n + 1 => do
    if ← mark "$\x7b" then
      let before ← mark "~"
      let value ← decorated (expr .free n)
      return .interpolation ⟨before, [], [], ← codeEnd⟩ value
    else if ← directiveAhead "if" then
      let (before, lead) ← directiveStart "if"
      let condition ← decorated (expr .line n)
      let opening := ⟨before, lead, [], ← codeEnd⟩
      let yes ← template n
      if ← directiveAhead "else" then
        let middle ← bareDirective "else"
        let no ← template n
        return .choice opening condition yes middle no (← bareDirective "endif")
      else return .choice opening condition yes none [] (← bareDirective "endif")
    else
      let (before, lead) ← directiveStart "for"
      let names ← forNames
      required (token "in")
      let source ← decorated (expr .line n)
      let opening := ⟨before, lead, [], ← codeEnd⟩
      let body ← template n
      return .loop opening names source body (← bareDirective "endfor")

end

end Reader

end StackGraph.Hcl
