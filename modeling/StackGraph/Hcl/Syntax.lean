import StackGraph.Decimal.Binary64
/-!
# Syntax of the configuration language

The syntax trees of HCL, the block language in which Terraform and Terragrunt files are written: a
body holds attributes and labelled blocks, an attribute holds an expression.

Nothing here is ever evaluated, so a tree keeps what is needed to write an expression down again:
the operands of a chain of binary operators stay in reading order, parentheses are nodes of their
own, and a text with interpolations is kept as that text. How an expression was spelled, its blanks
and comments, is not kept here but in the trees of `StackGraph.Hcl.Concrete`, from which these are
made.

Two entries of an object have the same key exactly when their keys are the same expression
(`Expr.same`), so a bare name differs from the quoted string of the same text, and objects are the
same in whichever order their entries stand. `Entry.insert` keeps the position of the first of two
such entries and the rest of the second.
-/

namespace StackGraph.Hcl

/-- A number: integers between `-2 ^ 63` and `2 ^ 64 - 1` stay exact. -/
inductive Number where
  /-- An exact integer. -/
  | integer (value : Int)
  /-- Any other number, as the nearest binary64 value. -/
  | double (value : Binary64)
deriving DecidableEq, Repr

namespace Number

/-- The nearest binary64 value. -/
def toBinary64 : Number → Binary64
  | integer value => Binary64.ofInt value
  | double value => value

/-- A magnitude that was written with a point or an exponent: integral values below `2 ^ 64` become
integers. -/
def ofMagnitude (x : Binary64) : Number :=
  match x.toNat? with
  | some n => if n < Nat.pow 2 64 then integer n else double x
  | none => double x

/-- The number with the other sign. The negation of an integer above `2 ^ 63` is not kept exact. -/
def neg : Number → Number
  | integer value =>
    if value ≤ Int.pow 2 63 then integer (-value) else double (Binary64.ofInt (-value))
  | double value => double value.neg

end Number

/-- The operators before a term. -/
inductive UnaryOp where
  | neg
  | not
deriving DecidableEq, Repr

/-- The sign of a unary operator. -/
def UnaryOp.sign : UnaryOp → Char
  | .neg => '-'
  | .not => '!'

/-- The operators between two terms. -/
inductive BinaryOp where
  | eq | ne | lt | le | gt | ge | add | sub | mul | div | rem | and | or
deriving DecidableEq, Repr

/-- The sign of a binary operator. -/
def BinaryOp.text : BinaryOp → String
  | .eq => "=="
  | .ne => "!="
  | .lt => "<"
  | .le => "<="
  | .gt => ">"
  | .ge => ">="
  | .add => "+"
  | .sub => "-"
  | .mul => "*"
  | .div => "/"
  | .rem => "%"
  | .and => "&&"
  | .or => "||"

/-- What stands around a text with interpolations or directives. -/
inductive Frame where
  /-- Quotes. -/
  | quoted
  /-- Two lines with a delimiter; `dedented` tells whether indentation was removed. -/
  | heredoc (delimiter : String) (dedented : Bool)
deriving DecidableEq, Repr

mutual

/-- Expressions. -/
inductive Expr where
  | null
  | bool (value : Bool)
  | number (value : Number)
  | string (value : String)
  /-- A text with interpolations or directives. The escapes of its literal parts are resolved and
  their markers doubled; its code is as it was written. -/
  | template (frame : Frame) (text : String)
  | list (items : List Expr)
  | object (entries : List Entry)
  | variable (name : String)
  | parens (inner : Expr)
  /-- A function call; the path holds the namespaces and the name. `spread` marks a final argument
  that is a list of arguments. -/
  | call (path : List String) (args : List Expr) (spread : Bool)
  | attribute (base : Expr) (name : String)
  | index (base : Expr) (key : Expr)
  /-- An index written as a number after a point. -/
  | position (base : Expr) (index : Nat)
  /-- `.*`, or `[*]` if `full`. -/
  | splat (base : Expr) (full : Bool)
  | unary (op : UnaryOp) (operand : Expr)
  /-- Chains of operators lean to the right in reading order. -/
  | binary (op : BinaryOp) (left right : Expr)
  | conditional (condition yes no : Expr)
  | forList (names : List String) (source value : Expr) (guard : Option Expr)
  /-- `grouped` marks values that are collected per key. -/
  | forObject (names : List String) (source key value : Expr) (grouped : Bool)
      (guard : Option Expr)

/-- One entry of an object. -/
inductive Entry where
  /-- The key is a bare name. -/
  | named (key : String) (value : Expr)
  /-- The key is any other expression. -/
  | keyed (key : Expr) (value : Expr)

end

instance : Inhabited Expr := ⟨.null⟩

mutual

/-- Whether two expressions are the same, whichever order the entries of their objects stand in. -/
def Expr.same : Expr → Expr → Bool
  | .null, .null => true
  | .bool a, .bool b => a == b
  | .number a, .number b => a == b
  | .string a, .string b => a == b
  | .template f s, .template g t => f == g && s == t
  | .list as, .list bs => sameExprs as bs
  | .object as, .object bs => as.length == bs.length && entriesAmong as bs
  | .variable a, .variable b => a == b
  | .parens a, .parens b => a.same b
  | .call p as s, .call q bs t => p == q && s == t && sameExprs as bs
  | .attribute a m, .attribute b n => m == n && a.same b
  | .index a i, .index b j => a.same b && i.same j
  | .position a m, .position b n => m == n && a.same b
  | .splat a m, .splat b n => m == n && a.same b
  | .unary m a, .unary n b => m == n && a.same b
  | .binary m a b, .binary n c d => m == n && a.same c && b.same d
  | .conditional a b c, .conditional d e f => a.same d && b.same e && c.same f
  | .forList ns a b g, .forList ms c d h => ns == ms && a.same c && b.same d && sameOption g h
  | .forObject ns a k b o g, .forObject ms c l d p h =>
    ns == ms && o == p && a.same c && k.same l && b.same d && sameOption g h
  | _, _ => false
termination_by structural e => e

/-- Whether two optional expressions are the same. -/
def sameOption : Option Expr → Option Expr → Bool
  | none, none => true
  | some a, some b => a.same b
  | _, _ => false
termination_by structural e => e

/-- Whether two lists of expressions are the same. -/
def sameExprs : List Expr → List Expr → Bool
  | [], [] => true
  | a :: as, b :: bs => a.same b && sameExprs as bs
  | _, _ => false
termination_by structural es => es

/-- Whether each of some entries is the same as one among others. -/
def entriesAmong : List Entry → List Entry → Bool
  | [], _ => true
  | a :: as, bs => bs.any (fun b => a.same b) && entriesAmong as bs
termination_by structural es => es

/-- Whether two entries are the same. -/
def Entry.same : Entry → Entry → Bool
  | .named k a, .named l b => k == l && a.same b
  | .keyed k a, .keyed l b => k.same l && a.same b
  | _, _ => false
termination_by structural e => e

end

namespace Entry

/-- The value of an entry. -/
def value : Entry → Expr
  | named _ value => value
  | keyed _ value => value

/-- Whether two entries have the same key. -/
def sameKey : Entry → Entry → Bool
  | named k _, named l _ => k == l
  | keyed k _, keyed l _ => k.same l
  | _, _ => false

/-- Adds an entry at the end, or puts it in the place of an earlier entry with its key. -/
def insert : List Entry → Entry → List Entry
  | [], e => [e]
  | d :: ds, e => if d.sameKey e then e :: ds else d :: insert ds e

end Entry

mutual

/-- One item of a body. -/
inductive Item where
  | attribute (name : String) (value : Expr)
  | block (block : Block)

/-- A block: its identifier, its labels and its body. -/
inductive Block where
  | mk (identifier : String) (labels : List String) (body : List Item)

end

/-- A body is a sequence of items. -/
abbrev Body := List Item

end StackGraph.Hcl
