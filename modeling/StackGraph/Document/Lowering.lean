import StackGraph.Document
import StackGraph.Hcl.Format
import StackGraph.Hcl.Reader
/-!
# Documents from configuration text

A syntax tree becomes a document: literals become values, every other expression its text. A
template that is a value of its own, an item, an entry or a key keeps the text between its
delimiters; inside a larger expression it is written with them. Parentheses around a literal mean
nothing.
-/

namespace StackGraph

namespace Hcl

/-- The key of a map that the value of a key expression stands for: its text, if it has one, and
otherwise the text of the expression. -/
def keyText (key : Expr) (value : Value) : String := value.text?.getD key.text

mutual

/-- The value of an expression. -/
def Expr.lower : Expr → Value
  | .null => .null
  | .bool value => .bool value
  | .number value => .number value.toBinary64
  | .string value => .string value
  | .template _ text => .expression text
  | .list items => .list (lowerItems items)
  | .object entries => .ofEntries (lowerEntries entries)
  | .parens inner =>
    match inner.lower with
    | .expression text => .expression ("(" ++ text ++ ")")
    | literal => literal
  | e => .expression e.text
termination_by structural e => e

/-- The values of some expressions. -/
def lowerItems : List Expr → List Value
  | [] => []
  | e :: es => e.lower :: lowerItems es
termination_by structural es => es

/-- The entries of a map, in the order of the object. -/
def lowerEntries : List Entry → List (String × Value)
  | [] => []
  | e :: es => e.lower :: lowerEntries es
termination_by structural es => es

/-- One entry of a map. -/
def Entry.lower : Entry → String × Value
  | .named key value => (key, value.lower)
  | .keyed key value => (keyText key key.lower, value.lower)
termination_by structural e => e

end

/-- The attributes among the items of a body. A repeated name keeps its last value. -/
def lowerAttributes (body : Body) : NameMap Value :=
  Std.ExtTreeMap.ofList (body.filterMap fun
    | .attribute name value => some (name, value.lower)
    | .block _ => none) compare

mutual

/-- The block of a document that an item is, if it is a block. -/
def Item.lower? : Item → Option StackGraph.Block
  | .attribute _ _ => none
  | .block block => some block.lower
termination_by structural i => i

/-- The block of a document that a block of the syntax is. -/
def Block.lower : Block → StackGraph.Block
  | .mk identifier labels body => ⟨identifier, labels, lowerAttributes body, lowerBlocks body⟩
termination_by structural b => b

/-- The blocks among the items of a body, in order. -/
def lowerBlocks : List Item → List StackGraph.Block
  | [] => []
  | item :: items => item.lower?.toList ++ lowerBlocks items
termination_by structural is => is

end

/-- The document that a body says. -/
def Body.lower (body : Body) : Document := ⟨lowerAttributes body, lowerBlocks body⟩

end Hcl

/-- The document that a text says, if it is configuration text. -/
def Document.read? (text : String) : Option Document := (Hcl.Body.read? text).map Hcl.Body.lower

end StackGraph
