import StackGraph.Hcl.Token
/-!
# How expressions go on

Two questions decide how far an expression goes, and a `Place` answers both: whether line breaks are
blanks between its parts, and whether it may be a conditional. The text behind a term then says what
follows: a `Continuation`, or the end of the expression.

* Line breaks are blanks inside parentheses, brackets, call arguments and interpolations. They stay
  blanks behind a call, a list or a for expression that an expression starts with, as long as the
  expression goes on behind them. An object allows them only between its entries and around its
  braces, a for expression that gives an object only around its keys and values.
* A right operand is no conditional, and neither are the items, arguments and branches within an
  expression that has a binary operator before them. Parentheses, interpolations and the keys and
  values of objects start afresh.
-/

namespace StackGraph.Hcl

/-- What an expression may hold where it stands. -/
structure Place where
  /-- Line breaks are blanks between its parts. -/
  lines : Bool
  /-- It may be a conditional. -/
  conditional : Bool

namespace Place

/-- A place on one line: the value of an attribute, the keys and values of an object or of a for
expression that gives one, what any for expression runs over, and the operand of a directive. -/
def line : Place := ⟨false, true⟩

/-- The inside of parentheses, of the brackets of an index and of an interpolation. -/
def free : Place := ⟨true, true⟩

/-- The items of a list, the arguments of a call, the values of a for expression that gives a list,
and the condition of any for expression. -/
def item (p : Place) : Place := { p with lines := true }

/-- The right operand of a binary operator. -/
def rightOperand (p : Place) : Place := { p with conditional := false }

end Place

/-- What an expression can go on with. -/
inductive Continuation where
  | traversal
  | binary (op : BinaryOp) (size : Nat)
  | conditional

/-- The continuation that a text starts with, if there is one. Two slashes are a comment, and points
in a row belong to a call or a for expression. -/
def Continuation.of? : List Char → Option Continuation
  | '.' :: '.' :: _ => none
  | '.' :: _ => some .traversal
  | '[' :: _ => some .traversal
  | '?' :: _ => some .conditional
  | '=' :: '=' :: _ => some (.binary .eq 2)
  | '!' :: '=' :: _ => some (.binary .ne 2)
  | '<' :: '=' :: _ => some (.binary .le 2)
  | '>' :: '=' :: _ => some (.binary .ge 2)
  | '&' :: '&' :: _ => some (.binary .and 2)
  | '|' :: '|' :: _ => some (.binary .or 2)
  | '/' :: '/' :: _ => none
  | '<' :: _ => some (.binary .lt 1)
  | '>' :: _ => some (.binary .gt 1)
  | '+' :: _ => some (.binary .add 1)
  | '-' :: _ => some (.binary .sub 1)
  | '*' :: _ => some (.binary .mul 1)
  | '/' :: _ => some (.binary .div 1)
  | '%' :: _ => some (.binary .rem 1)
  | _ => none

/-- Whether a text starts with a sign that stands behind a term only as a part of an operator, and
is no part of one here. -/
def strayOperator : List Char → Bool
  | '!' :: '=' :: _ => false
  | '!' :: _ => true
  | '&' :: '&' :: _ => false
  | '&' :: _ => true
  | '|' :: '|' :: _ => false
  | '|' :: _ => true
  | _ => false

/-- The continuation of an expression behind blanks, if it may be one at this place. Nothing is
consumed. -/
def Reader.continuation (p : Place) : Reader (Option Continuation) := fun s =>
  let ahead := s.drop (blankLength p.lines .outside s 0)
  if strayOperator ahead then .error .mismatch
  else
    .ok (match Continuation.of? ahead with
      | some .conditional => if p.conditional then some .conditional else none
      | next => next, s)

end StackGraph.Hcl
