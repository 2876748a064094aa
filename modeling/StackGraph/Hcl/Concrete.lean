import StackGraph.Hcl.Syntax
/-!
# Expressions as they are written

The concrete syntax of expressions: beside the expression itself its blanks, comments and signs. A
text with interpolations shows its code as it was written, so the reader gives these trees
(`Term`), from which both that text and the plain expressions of `StackGraph.Hcl.Syntax` are made.

A `Term` is a `Form` between blanks. Which blanks belong to which term is part of the grammar: each
enclosing rule places its operands (`Term.between`), and what follows a term may claim the blanks in
front of it (`Term.followedBy`).

Keys of objects are compared here too, while an object is read (`Form.same`): blanks around terms
and names make no difference, but the signs within a key do, as do blanks that stand before a
closing bracket or beside the keyword of a directive. Of the latter two never count as equal, unless
both are empty.
-/

namespace StackGraph.Hcl.Concrete

/-- Blanks, line breaks and comments as written. -/
abbrev Blank := List Char

/-- A name between blanks. -/
structure Word where
  before : Blank
  name : String
  after : Blank

/-- What stands between the last item of a list or call and the closing bracket: a comma or the
points of a final argument that is a list of arguments, and blanks behind them. -/
structure Tail where
  comma : Bool
  spread : Bool
  blank : Blank

/-- The ends of an interpolation or a directive. The flags tell which of them strip the blanks
beside it. `lead` stands before the keyword of a directive, `trail` behind one without operands. -/
structure Marker where
  before : Bool
  lead : Blank
  trail : Blank
  after : Bool

mutual

/-- An expression as written: its form between blanks. -/
inductive Term where
  | mk (before : Blank) (form : Form) (after : Blank)

/-- The form of an expression: its signs and parts in reading order. -/
inductive Form where
  | null
  | bool (value : Bool)
  /-- A number and its spelling. -/
  | number (value : Number) (text : List Char)
  | string (value : String)
  /-- A text with interpolations or directives between quotes. -/
  | quoted (pieces : List Piece)
  /-- A text between two lines with a delimiter, the number of blanks that were removed from each of
  its lines, and what stands before the closing delimiter. -/
  | heredoc (delimiter : String) (indent : Option Nat) (pieces : List Piece) (closing : Blank)
  | list (items : List Term) (tail : Tail)
  | object (entries : List Entry) (trailing : Blank)
  | variable (name : String)
  | parens (inner : Term)
  /-- A function call; the path holds the namespaces and the name. -/
  | call (path : List Word) (args : List Term) (tail : Tail)
  | attribute (base : Term) (before : Blank) (name : String)
  | index (base key : Term)
  /-- An index written as a number after a point. -/
  | position (base : Term) (before : Blank) (index : Nat)
  /-- `.*`, or `[*]` if `full`. -/
  | splat (base : Term) (before after : Blank) (full : Bool)
  | unary (op : UnaryOp) (operand : Term)
  | binary (op : BinaryOp) (left right : Term)
  | conditional (condition yes no : Term)
  /-- `lead` stands between the bracket and the keyword. -/
  | forList (lead : Blank) (names : List Word) (source value : Term) (guard : Option Term)
  /-- Values that are collected per key are `grouped`: three points and blanks follow them. -/
  | forObject (lead : Blank) (names : List Word) (source key value : Term) (grouped : Option Blank)
      (guard : Option Term)

/-- One entry of an object: the sign between key and value, and the comma or line break behind the
value, unless it is the last. -/
inductive Entry where
  | mk (key : Term) (sign : Char) (value : Term) (terminator : Option Char)

/-- One piece of a text with interpolations. -/
inductive Piece where
  /-- Literal text, its escapes resolved. -/
  | literal (text : List Char)
  | interpolation (marker : Marker) (value : Term)
  /-- `if`, `else` and `endif` with the text between them. Without `middle` there is no `else`, and
  `no` is empty. -/
  | choice (opening : Marker) (condition : Term) (yes : List Piece) (middle : Option Marker)
      (no : List Piece) (closing : Marker)
  /-- `for` and `endfor` with the text between them. -/
  | loop (opening : Marker) (names : List Word) (source : Term) (body : List Piece)
      (closing : Marker)

end

namespace Term

/-- A term that stands between the given blanks, whatever stood there before. -/
def between (before after : Blank) : Term → Term
  | mk _ form _ => mk before form after

/-- A term that stands behind the given blanks. -/
def precededBy (before : Blank) : Term → Term
  | mk _ form after => mk before form after

/-- A term with something that goes on behind the given blanks, whatever stood there before. -/
def followedBy (after : Blank) : Term → Term
  | mk before form _ => mk before form after

end Term

/-- A form without blanks around it. -/
def Form.term (form : Form) : Term := .mk [] form []

/-! ### Equality of keys -/

/-- Whether two blanks within a form count as equal. -/
def sameBlank (a b : Blank) : Bool := a.isEmpty && b.isEmpty

namespace Tail

/-- Whether two lists or calls end alike. The points of a final argument make no difference. -/
def same (a b : Tail) : Bool := a.comma == b.comma && sameBlank a.blank b.blank

end Tail

namespace Marker

/-- Whether two markers are alike. -/
def same (a b : Marker) : Bool :=
  a.before == b.before && a.after == b.after && sameBlank a.lead b.lead && sameBlank a.trail b.trail

end Marker

/-- Whether two lists of names are the same. -/
def sameNames (as bs : List Word) : Bool := as.map Word.name == bs.map Word.name

mutual

/-- Whether two terms have the same form. -/
def Term.same : Term → Term → Bool
  | .mk _ a _, .mk _ b _ => a.same b
termination_by structural t => t

/-- Whether two forms are the same but for blanks around their terms and names. -/
def Form.same : Form → Form → Bool
  | .null, .null => true
  | .bool a, .bool b => a == b
  | .number a _, .number b _ => a == b
  | .string a, .string b => a == b
  | .quoted as, .quoted bs => samePieces as bs
  | .heredoc d m as s, .heredoc e n bs t => d == e && m == n && sameBlank s t && samePieces as bs
  | .list as s, .list bs t => s.same t && sameTerms as bs
  | .object as s, .object bs t =>
    sameBlank s t && as.length == bs.length && entriesAmong as bs
  | .variable a, .variable b => a == b
  | .parens a, .parens b => a.same b
  | .call p as s, .call q bs t => sameNames p q && s.same t && sameTerms as bs
  | .attribute a _ m, .attribute b _ n => m == n && a.same b
  | .index a i, .index b j => a.same b && i.same j
  | .position a _ m, .position b _ n => m == n && a.same b
  | .splat a _ _ m, .splat b _ _ n => m == n && a.same b
  | .unary m a, .unary n b => m == n && a.same b
  | .binary m a b, .binary n c d => m == n && a.same c && b.same d
  | .conditional a b c, .conditional d e f => a.same d && b.same e && c.same f
  | .forList _ ns a b g, .forList _ ms c d h =>
    sameNames ns ms && a.same c && b.same d && sameOption g h
  | .forObject _ ns a k b o g, .forObject _ ms c l d p h =>
    sameNames ns ms && o.isSome == p.isSome && a.same c && k.same l && b.same d && sameOption g h
  | _, _ => false
termination_by structural f => f

/-- Whether two optional terms have the same form. -/
def sameOption : Option Term → Option Term → Bool
  | none, none => true
  | some a, some b => a.same b
  | _, _ => false
termination_by structural t => t

/-- Whether the terms of two lists have the same forms. -/
def sameTerms : List Term → List Term → Bool
  | [], [] => true
  | a :: as, b :: bs => a.same b && sameTerms as bs
  | _, _ => false
termination_by structural ts => ts

/-- Whether each of some entries is the same as one among others. -/
def entriesAmong : List Entry → List Entry → Bool
  | [], _ => true
  | a :: as, bs => bs.any (fun b => a.same b) && entriesAmong as bs
termination_by structural es => es

/-- Whether two entries are the same, their signs included. -/
def Entry.same : Entry → Entry → Bool
  | .mk k s a t, .mk l u b v => s == u && t == v && k.same l && a.same b
termination_by structural e => e

/-- Whether the pieces of two texts are the same. -/
def samePieces : List Piece → List Piece → Bool
  | [], [] => true
  | a :: as, b :: bs => a.same b && samePieces as bs
  | _, _ => false
termination_by structural ps => ps

/-- Whether two pieces are the same. -/
def Piece.same : Piece → Piece → Bool
  | .literal a, .literal b => a == b
  | .interpolation m a, .interpolation n b => m.same n && a.same b
  | .choice m a as o cs l, .choice n b bs p ds k =>
    m.same n && l.same k && a.same b && samePieces as bs && samePieces cs ds &&
      (match o, p with
        | some o, some p => o.same p
        | none, none => true
        | _, _ => false)
  | .loop m ns a as l, .loop n ms b bs k =>
    m.same n && l.same k && sameNames ns ms && a.same b && samePieces as bs
  | _, _ => false
termination_by structural p => p

end

namespace Entry

/-- Whether two entries have the same key. -/
def sameKey : Entry → Entry → Bool
  | mk k _ _ _, mk l _ _ _ => k.same l

/-- Adds an entry at the end, or puts it in the place of an earlier entry with its key. -/
def insert : List Entry → Entry → List Entry
  | [], e => [e]
  | d :: ds, e => if d.sameKey e then e :: ds else d :: insert ds e

end Entry

end StackGraph.Hcl.Concrete
