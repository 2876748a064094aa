import StackGraph.Decimal.Shortest
import StackGraph.Hcl.Quoted
import StackGraph.Hcl.Syntax
/-!
# Formatted expressions

The text of an expression written afresh from its tree: one blank around binary operators, no
parentheses added or dropped, strings quoted again, templates between plain quotes.

Lists and objects stand on one line inside the arguments of a call and inside a conditional.
Elsewhere every item has a line of its own, indented by two blanks per level. No comma follows an
item whose last list or object is an empty one: behind an opening bracket the next item counts as a
first one, whichever list it belongs to (`Expr.lastIsEmpty?`).
-/

namespace StackGraph.Hcl

/-- The text of a number. -/
def Number.text : Number → String
  | .integer value => toString value
  | .double value => value.text Decimal.Layout.config

/-- How the items of a list or object are set: all on one line if `compact` is set, and otherwise
each on its own line, one level deeper than the brackets. -/
structure Setting where
  compact : Bool
  depth : Nat

namespace Setting

/-- The setting of what stands one level further in. -/
def inner (s : Setting) : Setting := if s.compact then s else { s with depth := s.depth + 1 }

/-- The setting of the arguments of a call and of the terms of a conditional. -/
def onOneLine (s : Setting) : Setting := { s with compact := true }

/-- The indentation of a line. -/
def indentation (s : Setting) : String := String.ofList (List.replicate (2 * s.depth) ' ')

/-- A line break followed by the indentation of the new line. -/
def lineBreak (s : Setting) : String := "\n" ++ s.indentation

/-- Items one after the other, each with the flag that the next one counts as a first one: `start`
stands before a first item, `between` before any other. -/
def separated (start between : String) : Bool → List (String × Bool) → String
  | _, [] => ""
  | first, (item, empty) :: rest =>
    (if first then start else between) ++ item ++ separated start between empty rest

/-- The items of a list between its brackets. -/
def list (s : Setting) (items : List (String × Bool)) : String :=
  if items.isEmpty then "[]"
  else if s.compact then "[" ++ separated "" ", " true items ++ "]"
  else
    "[" ++ separated s.inner.lineBreak ("," ++ s.inner.lineBreak) true items ++ s.lineBreak ++ "]"

/-- The entries of an object between its braces. -/
def object (s : Setting) (entries : List (String × Bool)) : String :=
  if entries.isEmpty then "\x7b\x7d"
  else if s.compact then "\x7b" ++ separated " " ", " true entries ++ " \x7d"
  else
    "\x7b" ++ separated s.inner.lineBreak s.inner.lineBreak true entries ++ s.lineBreak ++ "\x7d"

/-- A text with interpolations as part of a larger expression. The closing delimiter of a heredoc
stands on a line of its own, which is indented if the text was dedented. -/
def template (s : Setting) (text : String) : Frame → String
  | .quoted => "\"" ++ text ++ "\""
  | .heredoc delimiter dedented =>
    "<<" ++ (if dedented then "-" else "") ++ delimiter ++ "\n" ++ text ++
      (if text.endsWith "\n" then "" else "\n") ++
      (if dedented then s.indentation else "") ++ delimiter

end Setting

mutual

/-- Whether the list or object that an expression opens or goes on with last is an empty one; none
if it holds no list or object. -/
def Expr.lastIsEmpty? : Expr → Option Bool
  | .list items => some ((lastItemIsEmpty? items).getD items.isEmpty)
  | .object entries => some ((lastEntryIsEmpty? entries).getD entries.isEmpty)
  | .parens inner => inner.lastIsEmpty?
  | .call _ args _ => anyLastIsEmpty? args
  | .attribute base _ => base.lastIsEmpty?
  | .index base key => key.lastIsEmpty?.or base.lastIsEmpty?
  | .position base _ => base.lastIsEmpty?
  | .splat base _ => base.lastIsEmpty?
  | .unary _ operand => operand.lastIsEmpty?
  | .binary _ left right => right.lastIsEmpty?.or left.lastIsEmpty?
  | .conditional condition yes no =>
    no.lastIsEmpty?.or (yes.lastIsEmpty?.or condition.lastIsEmpty?)
  | .forList _ source value guard =>
    (guardLastIsEmpty? guard).or (value.lastIsEmpty?.or source.lastIsEmpty?)
  | .forObject _ source key value _ guard =>
    (guardLastIsEmpty? guard).or
      (value.lastIsEmpty?.or (key.lastIsEmpty?.or source.lastIsEmpty?))
  | _ => none
termination_by structural e => e

/-- `Expr.lastIsEmpty?` of the condition of a for expression. -/
def guardLastIsEmpty? : Option Expr → Option Bool
  | none => none
  | some guard => guard.lastIsEmpty?
termination_by structural e => e

/-- `Expr.lastIsEmpty?` of expressions that are written one after the other. -/
def anyLastIsEmpty? : List Expr → Option Bool
  | [] => none
  | e :: es => (anyLastIsEmpty? es).or e.lastIsEmpty?
termination_by structural es => es

/-- `Expr.lastIsEmpty?` of the last of the items of a list. -/
def lastItemIsEmpty? : List Expr → Option Bool
  | [] => none
  | e :: es => if es.isEmpty then e.lastIsEmpty? else lastItemIsEmpty? es
termination_by structural es => es

/-- `Expr.lastIsEmpty?` of the last of the entries of an object. -/
def lastEntryIsEmpty? : List Entry → Option Bool
  | [] => none
  | e :: es => if es.isEmpty then e.lastIsEmpty? else lastEntryIsEmpty? es
termination_by structural es => es

/-- `Expr.lastIsEmpty?` of an entry. -/
def Entry.lastIsEmpty? : Entry → Option Bool
  | .named _ value => value.lastIsEmpty?
  | .keyed key value => value.lastIsEmpty?.or key.lastIsEmpty?
termination_by structural e => e

end

mutual

/-- The text of an expression. -/
def Expr.textIn (s : Setting) : Expr → String
  | .null => "null"
  | .bool value => if value then "true" else "false"
  | .number value => value.text
  | .string value => quote value
  | .template frame text => s.template text frame
  | .list items => s.list (itemTextsIn s.inner items)
  | .object entries => s.object (entryTextsIn s.inner entries)
  | .variable name => name
  | .parens inner => "(" ++ inner.textIn s ++ ")"
  | .call path args spread =>
    "::".intercalate path ++ "(" ++ ", ".intercalate (textsIn s.onOneLine args) ++
      (if spread then "..." else "") ++ ")"
  | .attribute base name => base.textIn s ++ "." ++ name
  | .index base key => base.textIn s ++ "[" ++ key.textIn s ++ "]"
  | .position base index => base.textIn s ++ "." ++ toString index
  | .splat base full => base.textIn s ++ (if full then "[*]" else ".*")
  | .unary op operand => op.sign.toString ++ operand.textIn s
  | .binary op left right => left.textIn s ++ " " ++ op.text ++ " " ++ right.textIn s
  | .conditional condition yes no =>
    condition.textIn s.onOneLine ++ " ? " ++ yes.textIn s.onOneLine ++ " : " ++
      no.textIn s.onOneLine
  | .forList names source value guard =>
    "[for " ++ ", ".intercalate names ++ " in " ++ source.textIn s ++ " : " ++ value.textIn s ++
      guardTextIn s guard ++ "]"
  | .forObject names source key value grouped guard =>
    "\x7bfor " ++ ", ".intercalate names ++ " in " ++ source.textIn s ++ " : " ++
      key.textIn s ++ " => " ++ value.textIn s ++ (if grouped then "..." else "") ++
      guardTextIn s guard ++ "\x7d"
termination_by structural e => e

/-- The condition at the end of a for expression. -/
def guardTextIn (s : Setting) : Option Expr → String
  | none => ""
  | some guard => " if " ++ guard.textIn s
termination_by structural e => e

/-- The texts of several expressions. -/
def textsIn (s : Setting) : List Expr → List String
  | [] => []
  | e :: es => e.textIn s :: textsIn s es
termination_by structural es => es

/-- The texts of the items of a list, each with the flag that its last list or object is
empty. -/
def itemTextsIn (s : Setting) : List Expr → List (String × Bool)
  | [] => []
  | e :: es => (e.textIn s, e.lastIsEmpty? == some true) :: itemTextsIn s es
termination_by structural es => es

/-- The texts of the entries of an object, each with the flag that its last list or object is
empty. -/
def entryTextsIn (s : Setting) : List Entry → List (String × Bool)
  | [] => []
  | e :: es => (e.textIn s, e.lastIsEmpty? == some true) :: entryTextsIn s es
termination_by structural es => es

/-- The text of one entry of an object. -/
def Entry.textIn (s : Setting) : Entry → String
  | .named key value => key ++ " = " ++ value.textIn s
  | .keyed key value => key.textIn s ++ " = " ++ value.textIn s
termination_by structural e => e

end

/-- The text of an expression on its own. -/
def Expr.text (e : Expr) : String := e.textIn ⟨false, 0⟩

end StackGraph.Hcl
