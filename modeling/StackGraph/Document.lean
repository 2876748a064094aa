import StackGraph.Decimal.Binary64
import StackGraph.Ordered
/-!
# Documents

What a configuration file says, whichever of the two kinds it is: attributes and labelled blocks.
Literal values keep their type; whatever would need evaluation is kept as the text of its
expression.

`Document.texts` collects every text of a document, which is where references are looked for.
-/

namespace StackGraph

/-- The two kinds of configuration file. -/
inductive FileKind where
  /-- A Terragrunt file, which declares what a unit depends on. -/
  | orchestration
  /-- A Terraform file, which defines the contents of a unit. -/
  | moduleDefinition
deriving DecidableEq, Repr

namespace FileKind

/-- The name of a kind. -/
def text : FileKind → String
  | orchestration => "orchestration"
  | moduleDefinition => "module-definition"

/-- Orchestration files come first. -/
def rank : FileKind → Nat
  | orchestration => 0
  | moduleDefinition => 1

/-- Two kinds with one place in the order are the same. -/
theorem rank_injective {a b : FileKind} (h : a.rank = b.rank) : a = b := by
  cases a <;> cases b <;> first | rfl | cases h

/-- Kinds in their order. -/
def compare : FileKind → FileKind → Ordering := compareOn rank

instance : Std.TransCmp compare := inferInstanceAs (Std.TransCmp (compareOn rank))

instance : Std.LawfulEqCmp compare where
  eq_of_compare h := rank_injective (Std.LawfulEqCmp.eq_of_compare h)
  compare_self := by simp [compare, compareOn, Std.ReflCmp.compare_self]

end FileKind

/-- The value of an attribute. -/
inductive Value where
  | null
  | bool (value : Bool)
  | number (value : Binary64)
  | string (text : String)
  | list (items : List Value)
  /-- The keys are distinct and in order. -/
  | map (entries : List (String × Value))
  /-- The text of an expression that would need evaluation. -/
  | expression (text : String)

instance : Inhabited Value := ⟨.null⟩

namespace Value

/-- The map with the given entries; of equal keys the last counts. -/
def ofEntries (entries : List (String × Value)) : Value :=
  map (Std.ExtTreeMap.ofList entries compare).toList

/-- The literal string, if the value is one. -/
def string? : Value → Option String
  | string text => some text
  | _ => none

/-- The literal string or the text of the expression. -/
def text? : Value → Option String
  | string text => some text
  | expression text => some text
  | _ => none

/-- The items, if the value is a list. -/
def list? : Value → Option (List Value)
  | list items => some items
  | _ => none

/-- The entries, if the value is a map. -/
def map? : Value → Option (List (String × Value))
  | map entries => some entries
  | _ => none

/-- Whether the value is the text of an expression. -/
def isExpression : Value → Bool
  | expression _ => true
  | _ => false

mutual

/-- Every text in a value, from left to right. The keys of a map are among them, since a computed
key can hold references. -/
def texts : Value → List String
  | string text => [text]
  | expression text => [text]
  | list items => textsOfList items
  | map entries => textsOfEntries entries
  | null | bool _ | number _ => []
termination_by structural v => v

/-- Every text in the items of a list. -/
def textsOfList : List Value → List String
  | [] => []
  | v :: vs => v.texts ++ textsOfList vs
termination_by structural vs => vs

/-- Every text in the entries of a map. -/
def textsOfEntries : List (String × Value) → List String
  | [] => []
  | (key, v) :: vs => key :: v.texts ++ textsOfEntries vs
termination_by structural vs => vs

end

end Value

/-- A block with its labels and a body of some kind. -/
structure BlockOf (Body : Type) where
  /-- The kind of block. -/
  identifier : String
  labels : List String
  body : Body

/-- The attributes and blocks of a file or of the body of a block. -/
structure Document where
  attributes : NameMap Value
  /-- In the order of the file. -/
  blocks : List (BlockOf Document)

/-- A block of a document. -/
abbrev Block := BlockOf Document

/-- The first label, which names the block in both kinds of file. -/
def BlockOf.name? {Body : Type} (b : BlockOf Body) : Option String := b.labels.head?

namespace Document

/-- The document that says nothing. -/
def empty : Document := ⟨∅, []⟩

instance : Inhabited Document := ⟨empty⟩

/-- Whether the document says nothing. -/
def isEmpty (d : Document) : Bool := d.attributes.isEmpty && d.blocks.isEmpty

/-- The value of an attribute. -/
def get? (d : Document) (name : String) : Option Value := d.attributes[name]?

/-- The blocks of one kind, in the order of the file. -/
def blocksOf (d : Document) (identifier : String) : List Block :=
  d.blocks.filter (·.identifier == identifier)

mutual

/-- Every text of a document: those of its attributes in the order of their names, then those of
its blocks. -/
def texts : Document → List String
  | ⟨attributes, blocks⟩ => attributes.toList.flatMap (·.2.texts) ++ textsOfBlocks blocks
termination_by structural d => d

/-- Every text in the bodies of some blocks. -/
def textsOfBlocks : List (BlockOf Document) → List String
  | [] => []
  | ⟨_, _, body⟩ :: blocks => body.texts ++ textsOfBlocks blocks
termination_by structural bs => bs

end

end Document

end StackGraph
