import StackGraph.Hcl.Concrete.Text
/-!
# From concrete syntax to expressions

`Term.toExpr` forgets how an expression was written. A text with interpolations becomes the text
that is written for it, an object the object of its entries: keys that differ only in signs that are
forgotten come to be the same, and then the last entry stands in the place of the first.
-/

namespace StackGraph.Hcl.Concrete

mutual

/-- The expression that a term denotes. -/
def Term.toExpr : Term → Expr
  | .mk _ form _ => form.toExpr
termination_by structural t => t

/-- The expression that a form denotes. -/
def Form.toExpr : Form → Expr
  | .null => .null
  | .bool value => .bool value
  | .number value _ => .number value
  | .string value => .string value
  | .quoted pieces => .template .quoted (writtenPieces pieces).run
  | .heredoc delimiter indent pieces _ =>
    .template (.heredoc delimiter indent.isSome) (writtenPieces pieces).run
  | .list items _ => .list (exprs items)
  | .object es _ => .object ((entries es).foldl Hcl.Entry.insert [])
  | .variable name => .variable name
  | .parens inner => .parens inner.toExpr
  | .call path args tail => .call (path.map Word.name) (exprs args) tail.spread
  | .attribute base _ name => .attribute base.toExpr name
  | .index base key => .index base.toExpr key.toExpr
  | .position base _ index => .position base.toExpr index
  | .splat base _ _ full => .splat base.toExpr full
  | .unary op operand => .unary op operand.toExpr
  | .binary op left right => .binary op left.toExpr right.toExpr
  | .conditional condition yes no => .conditional condition.toExpr yes.toExpr no.toExpr
  | .forList _ names source value guard =>
    .forList (names.map Word.name) source.toExpr value.toExpr (optionExpr guard)
  | .forObject _ names source key value grouped guard =>
    .forObject (names.map Word.name) source.toExpr key.toExpr value.toExpr grouped.isSome
      (optionExpr guard)
termination_by structural f => f

/-- The expression of an optional term. -/
def optionExpr : Option Term → Option Expr
  | none => none
  | some t => some t.toExpr
termination_by structural t => t

/-- The expressions of some terms. -/
def exprs : List Term → List Expr
  | [] => []
  | t :: ts => t.toExpr :: exprs ts
termination_by structural ts => ts

/-- The entries of an object. -/
def entries : List Entry → List Hcl.Entry
  | [] => []
  | e :: es => e.toEntry :: entries es
termination_by structural es => es

/-- The entry that is written. A bare name is a key of its own kind. -/
def Entry.toEntry : Entry → Hcl.Entry
  | .mk key _ value _ =>
    match key.toExpr with
    | .variable name => .named name value.toExpr
    | expr => .keyed expr value.toExpr
termination_by structural e => e

end

end StackGraph.Hcl.Concrete
