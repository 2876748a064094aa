import StackGraph.Document
/-!
# Block vocabularies

The blocks that may stand at the top of a file of either kind, and how many labels each takes.
Blocks of other kinds are accepted as they are; a known block with the wrong number of labels is a
violation and is left out of the document.
-/

namespace StackGraph

/-- How many labels a block takes. -/
structure LabelRule where
  identifier : String
  least : Nat
  most : Nat
deriving DecidableEq, Repr

/-- The known blocks of a kind of file. -/
def FileKind.labelRules : FileKind → List LabelRule
  | orchestration =>
    [⟨"terraform", 0, 0⟩, ⟨"include", 0, 1⟩, ⟨"dependency", 1, 1⟩, ⟨"dependencies", 0, 0⟩,
      ⟨"locals", 0, 0⟩, ⟨"generate", 1, 1⟩, ⟨"remote_state", 0, 0⟩]
  | moduleDefinition =>
    [⟨"module", 1, 1⟩, ⟨"output", 1, 1⟩, ⟨"variable", 1, 1⟩, ⟨"resource", 2, 2⟩, ⟨"data", 2, 2⟩,
      ⟨"provider", 1, 1⟩, ⟨"locals", 0, 0⟩, ⟨"terraform", 0, 0⟩, ⟨"moved", 0, 0⟩,
      ⟨"import", 0, 0⟩]

/-- The rule for a block, if it is known. -/
def FileKind.labelRule? (kind : FileKind) (identifier : String) : Option LabelRule :=
  kind.labelRules.find? (·.identifier == identifier)

namespace LabelRule

/-- Whether the number of labels is allowed. -/
def allows (rule : LabelRule) (count : Nat) : Bool := rule.least ≤ count && count ≤ rule.most

/-- The allowed numbers as text. -/
def range (rule : LabelRule) : String :=
  if rule.least = rule.most then toString rule.least
  else toString rule.least ++ " to " ++ toString rule.most

end LabelRule

/-- A known block with the wrong number of labels. -/
structure Violation where
  kind : FileKind
  rule : LabelRule
  /-- The number of labels that the block has. -/
  found : Nat
deriving DecidableEq, Repr

/-- The text of a violation. -/
def Violation.message (v : Violation) : String :=
  v.kind.text ++ " block \x60" ++ v.rule.identifier ++ "\x60 expects " ++ v.rule.range ++
    " label(s), found " ++ toString v.found

/-- What is wrong with a block at the top of a file. -/
def FileKind.violation? (kind : FileKind) (b : Block) : Option Violation :=
  match kind.labelRule? b.identifier with
  | none => none
  | some rule => if rule.allows b.labels.length then none else some ⟨kind, rule, b.labels.length⟩

/-- The document without the blocks that violate the vocabulary, and the violations. -/
def Document.checked (kind : FileKind) (d : Document) : Document × List Violation :=
  (⟨d.attributes, d.blocks.filter fun b => (kind.violation? b).isNone⟩,
    d.blocks.filterMap kind.violation?)

end StackGraph
