import Mathlib.Data.List.Nodup
import StackGraph.Analysis
import StackGraph.Proofs.Hcl.Body
import StackGraph.Proofs.Ordered
/-!
# What a file says, from its text on

Between the text of an orchestration file and the declarations of its fragment
there are three steps: the syntax tree is lowered to a document, blocks that
violate the vocabulary are dropped, and every remaining `dependency` block and
every entry of a `dependencies` block becomes either a declaration or a
problem. This module follows a block of the syntax tree through the three. The
attributes of its body are found under their names (`Hcl.getElem?_lowerAttributes`),
and what the fragment holds for it is a violation, a problem or a declaration
(`Fragment.ofFile_orchestration`).
-/

namespace StackGraph

open Std

/-! ## Lowering -/

namespace Hcl

variable {items : Body} {name : String} {v : Value}

/-- The blocks of a document are those of the body. -/
theorem mem_lowerBlocks {b : StackGraph.Block} :
    b ∈ lowerBlocks items ↔ ∃ block, .block block ∈ items ∧ b = block.lower := by
  induction items with
  | nil => simp [lowerBlocks]
  | cons item items ih =>
    rw [lowerBlocks, List.mem_append, ih]
    rcases item with ⟨name, value⟩ | block
    · simp [Item.lower?]
    · simp [Item.lower?]

/-- The value under a name is that of an attribute of the name. -/
theorem exists_attribute_of_getElem?_lowerAttributes (h : (lowerAttributes items)[name]? = some v) :
    ∃ value, .attribute name value ∈ items ∧ value.lower = v := by
  rw [lowerAttributes, getElem?_mapOfList, Option.map_eq_some_iff] at h
  obtain ⟨⟨name', v'⟩, hlast, rfl⟩ := h
  obtain ⟨hmem, hname⟩ := List.mem_filter.1 (List.mem_of_mem_getLast? hlast)
  obtain ⟨item, hitem, hentry⟩ := List.mem_filterMap.1 hmem
  obtain rfl : name' = name := by simpa using hname
  rcases item with ⟨key, value⟩ | block
  · cases hentry
    exact ⟨value, hitem, rfl⟩
  · cases hentry

/-- **An attribute is found under its name**, where names are distinct. -/
theorem getElem?_lowerAttributes {value : Expr} (hdistinct : Body.Distinct items)
    (h : .attribute name value ∈ items) : (lowerAttributes items)[name]? = some value.lower := by
  refine ExtTreeMap.getElem?_ofList_of_mem ReflCmp.compare_self ?_
    (List.mem_filterMap.2 ⟨_, h, rfl⟩)
  -- distinct names of attributes are distinct keys of entries
  have hnodup := hdistinct.nodup
  rw [Reader.attributeNames, List.Nodup, List.pairwise_filterMap] at hnodup
  rw [List.pairwise_filterMap]
  refine hnodup.imp fun {i j} hne p hp q hq heq => ?_
  rcases i with ⟨name, value⟩ | block
  · rcases j with ⟨name', value'⟩ | block'
    · cases hp
      cases hq
      exact hne _ rfl _ rfl (LawfulEqCmp.eq_of_compare heq)
    · cases hq
  · cases hp

end Hcl

/-! ## The vocabulary -/

namespace Document

variable {kind : FileKind} {d : Document} {b : Block}

/-- **A block is kept or it is a violation.** -/
theorem mem_checked (h : b ∈ d.blocks) :
    (kind.violation? b = none ∧ b ∈ (d.checked kind).1.blocks)
      ∨ ∃ v, kind.violation? b = some v ∧ v ∈ (d.checked kind).2 := by
  cases hv : kind.violation? b with
  | none => exact .inl ⟨rfl, List.mem_filter.2 ⟨h, by simp [hv]⟩⟩
  | some v => exact .inr ⟨v, rfl, List.mem_filterMap.2 ⟨b, h, hv⟩⟩

/-! ## The outcome of a block -/

theorem dependencyOf_of_none (h : b.body.get? "config_path" = none) :
    dependencyOf b = .error (.noPath (b.name?.getD "")) := by
  rw [dependencyOf, h]

theorem dependencyOf_of_string {written : String}
    (h : b.body.get? "config_path" = some (.string written)) :
    dependencyOf b = .ok (some (b.name?.getD ""), written) := by
  rw [dependencyOf, h]

theorem dependencyOf_of_not_string {v : Value} (h : b.body.get? "config_path" = some v)
    (hv : ∀ written, v ≠ .string written) :
    dependencyOf b = .error (.pathNotLiteral (b.name?.getD "") v) := by
  rw [dependencyOf, h]
  cases v with
  | string written => exact absurd rfl (hv written)
  | _ => rfl

theorem entryOf_of_not_string {v : Value} (hv : ∀ written, v ≠ .string written) :
    entryOf v = .error (.entryNotLiteral v) := by
  cases v with
  | string written => exact absurd rfl (hv written)
  | _ => rfl

/-- A kept `dependency` block has an outcome. -/
theorem dependencyOf_mem_declarations (h : b ∈ d.blocksOf "dependency") :
    dependencyOf b ∈ d.declarations :=
  List.mem_append_left _ (List.mem_map_of_mem h)

/-- The entries of a kept `dependencies` block have outcomes. -/
theorem entryOf_mem_declarations (h : b ∈ d.blocksOf "dependencies") {items : List Value}
    (hpaths : b.body.get? "paths" = some (.list items)) {item : Value} (hitem : item ∈ items) :
    entryOf item ∈ d.declarations := by
  refine List.mem_append_right _ (List.mem_flatMap.2 ⟨b, h, ?_⟩)
  rw [entriesOf, hpaths]
  exact List.mem_map_of_mem hitem

end Document

/-! ## The fragment of an orchestration file -/

/-- A file that is read holds what the vocabulary leaves of it, with a
diagnostic for each violation. -/
theorem ConfigFile.ofText_of_read? {root : ScanRoot} {path : Path} {kind : FileKind} {text : String}
    {body : Hcl.Body} (h : Hcl.Body.read? text = some body) :
    ofText root path kind text
      = ⟨path, root.relativePath path, kind, (body.lower.checked kind).1,
        (body.lower.checked kind).2.map fun v => .grammar (root.relativePath path) v.message,
        false⟩ := by
  rw [ofText, Document.read?, h]
  rfl

/-- **A broken file**: one that cannot be read, or whose text is not valid. -/
def Workspace.IsBroken (w : Workspace) (path : Path) : Prop :=
  ∀ text, w.readText path = .ok text → Document.read? text = none

/-- **What is reported of a broken file**: why it cannot be read, or else that
its text is not valid. -/
def Workspace.failure? (w : Workspace) (root : ScanRoot) (path : Path) : Option Diagnostic :=
  match w.readText path with
  | .ok text =>
    match Document.read? text with
    | some _ => none
    | none => some (.syntaxError (root.relativePath path) invalidSyntax)
  | .error e =>
    some (.filesystem (root.relativePath path) ("could not read file: " ++ e.text))

/-- A failure names the file. -/
theorem Workspace.path_and_kind_of_mem_failure? {w : Workspace} {root : ScanRoot} {path : Path}
    {d : Diagnostic} (hd : d ∈ w.failure? root path) :
    d.path = some (root.relativePath path) ∧ (d.kind = .filesystem ∨ d.kind = .syntaxError) := by
  unfold failure? at hd
  split at hd
  · split at hd
    · cases hd
    · cases hd
      exact ⟨rfl, .inr rfl⟩
  · cases hd
    exact ⟨rfl, .inl rfl⟩

namespace ConfigFile

variable {w : Workspace} {root : ScanRoot} {path : Path} {kind : FileKind}

/-- **The diagnostics of a file** are its failure if it is broken, and else those
for violations of the vocabulary. -/
theorem exists_diagnostics_read :
    ∃ messages : List String, (read w root path kind).diagnostics
      = (w.failure? root path).toList ++ messages.map (.grammar (root.relativePath path)) := by
  unfold read Workspace.failure?
  cases w.readText path with
  | error e => exact ⟨[], rfl⟩
  | ok text =>
    dsimp only
    unfold ofText
    cases Document.read? text with
    | none => exact ⟨[], rfl⟩
    | some d => exact ⟨(d.checked kind).2.map Violation.message, (List.map_map ..).symm⟩

/-- Whatever a file says, it keeps its path. -/
theorem path_read : (read w root path kind).path = path
    ∧ (read w root path kind).relativePath = root.relativePath path := by
  unfold read
  split
  · unfold ofText
    split <;> exact ⟨rfl, rfl⟩
  · exact ⟨rfl, rfl⟩

/-- **A file fails exactly if it is broken.** -/
theorem failed_read : (read w root path kind).failed = true ↔ w.IsBroken path := by
  unfold read Workspace.IsBroken
  split
  · rename_i text hok
    have htext : (ofText root path kind text).failed = true ↔ Document.read? text = none := by
      unfold ofText
      split
      · rename_i hnone
        exact iff_of_true rfl hnone
      · rename_i d hsome
        rw [hsome]
        exact iff_of_false Bool.false_ne_true (Option.some_ne_none d)
    rw [htext, hok]
    simp
  · rename_i e herror
    rw [herror]
    exact iff_of_true rfl fun text h => nomatch h

end ConfigFile

namespace Fragment

variable {root : ScanRoot} {file : ConfigFile}

@[simp] theorem moduleId_ofFile : (ofFile root file).moduleId = root.moduleIdOfFile file.path := by
  unfold ofFile
  split
  · rfl
  · split <;> rfl

@[simp] theorem file_ofFile : (ofFile root file).file = file.relativePath := by
  unfold ofFile
  split
  · rfl
  · split <;> rfl

/-- A fragment marks its module as a stub if its file failed. -/
@[simp] theorem stub_ofFile : (ofFile root file).stub = file.failed := by
  unfold ofFile
  split
  · rfl
  · split <;> rfl

theorem declared_ofFile (hkind : file.kind = .orchestration) (hread : file.failed = false) :
    (ofFile root file).declared
      = declaredOf root (root.moduleIdOfFile file.path) file.document.declarations := by
  rw [ofFile, hread, hkind]
  rfl

theorem diagnostics_ofFile (hkind : file.kind = .orchestration) (hread : file.failed = false) :
    (ofFile root file).diagnostics
      = file.diagnostics ++ problemsOf (root.moduleIdOfFile file.path) file.relativePath
        file.document.declarations := by
  rw [ofFile, hread, hkind]
  rfl

theorem exists_problemsOf {moduleId path : String}
    {outcomes : List (Except DeclarationProblem (Option String × String))} :
    ∃ messages : List String, problemsOf moduleId path outcomes
      = messages.map fun message => (Diagnostic.resolution moduleId message).withPath path := by
  induction outcomes with
  | nil => exact ⟨[], rfl⟩
  | cons outcome outcomes ih =>
    obtain ⟨messages, ih⟩ := ih
    cases outcome with
    | ok declaration => exact ⟨messages, ih⟩
    | error problem => exact ⟨problem.message :: messages, congrArg (List.cons _) ih⟩

/-- A fragment adds the diagnostics for what the file declares in vain. -/
theorem exists_diagnostics_ofFile :
    ∃ messages : List String, (ofFile root file).diagnostics = file.diagnostics
      ++ messages.map fun message =>
        (Diagnostic.resolution (root.moduleIdOfFile file.path) message).withPath
          file.relativePath := by
  unfold ofFile
  split
  · exact ⟨[], (List.append_nil _).symm⟩
  · cases file.kind with
    | orchestration =>
      exact exists_problemsOf.imp fun messages h => congrArg (file.diagnostics ++ ·) h
    | moduleDefinition => exact ⟨[], (List.append_nil _).symm⟩

/-! ### What becomes of a block

Of an orchestration file with a text that is read. -/

variable {path : Path} {text : String} {body inner : Hcl.Body} {labels : List String}

/-- The fragment of an orchestration file with the given text. -/
abbrev ofOrchestration (root : ScanRoot) (path : Path) (text : String) : Fragment :=
  ofFile root (.ofText root path .orchestration text)

/-- The document that is left of a body in an orchestration file. -/
abbrev keptDocument (body : Hcl.Body) : Document := (body.lower.checked .orchestration).1

theorem moduleId_ofOrchestration (hread : Hcl.Body.read? text = some body) :
    (ofOrchestration root path text).moduleId = root.moduleIdOfFile path := by
  rw [ofOrchestration, moduleId_ofFile, ConfigFile.ofText_of_read? hread]

/-- A violation leaves a diagnostic. -/
theorem grammar_mem_diagnostics (hread : Hcl.Body.read? text = some body) {b : Block}
    {v : Violation} (hb : b ∈ body.lower.blocks) (hv : FileKind.orchestration.violation? b = some v) :
    .grammar (root.relativePath path) v.message ∈ (ofOrchestration root path text).diagnostics := by
  rw [ofOrchestration, ConfigFile.ofText_of_read? hread, diagnostics_ofFile rfl rfl]
  refine List.mem_append_left _ (List.mem_map.2 ⟨v, ?_, rfl⟩)
  exact List.mem_filterMap.2 ⟨b, hb, hv⟩

/-- A problem leaves a diagnostic. -/
theorem problem_mem_diagnostics (hread : Hcl.Body.read? text = some body)
    {problem : DeclarationProblem} (h : .error problem ∈ (keptDocument body).declarations) :
    (Diagnostic.resolution (root.moduleIdOfFile path) problem.message).withPath
      (root.relativePath path) ∈ (ofOrchestration root path text).diagnostics := by
  rw [ofOrchestration, ConfigFile.ofText_of_read? hread, diagnostics_ofFile rfl rfl]
  exact List.mem_append_right _ (List.mem_filterMap.2 ⟨_, h, rfl⟩)

/-- What is no problem is declared. -/
theorem mem_declared (hread : Hcl.Body.read? text = some body) {name : Option String}
    {written : String} (h : .ok (name, written) ∈ (keptDocument body).declarations) :
    ⟨name, written, root.resolve (root.moduleIdOfFile path) written⟩
      ∈ (ofOrchestration root path text).declared := by
  rw [ofOrchestration, ConfigFile.ofText_of_read? hread, declared_ofFile rfl rfl]
  exact List.mem_filterMap.2 ⟨_, h, rfl⟩

/-- **A known block is dropped with a diagnostic or kept**, as the number of its
labels has it. -/
theorem dropped_or_kept (hread : Hcl.Body.read? text = some body) {identifier : String}
    {rule : LabelRule} (hrule : FileKind.orchestration.labelRule? identifier = some rule)
    (hblock : .block (.mk identifier labels inner) ∈ body) :
    (rule.allows labels.length = false
        ∧ .grammar (root.relativePath path)
            (Violation.message ⟨.orchestration, rule, labels.length⟩)
          ∈ (ofOrchestration root path text).diagnostics)
      ∨ (rule.allows labels.length = true
        ∧ (Hcl.Block.mk identifier labels inner).lower
          ∈ (keptDocument body).blocksOf identifier) := by
  have hmem : (Hcl.Block.mk identifier labels inner).lower ∈ body.lower.blocks :=
    Hcl.mem_lowerBlocks.2 ⟨_, hblock, rfl⟩
  have hviolation : FileKind.orchestration.violation? (Hcl.Block.mk identifier labels inner).lower
      = if rule.allows labels.length then none else some ⟨.orchestration, rule, labels.length⟩ := by
    rw [FileKind.violation?, Hcl.Block.lower, hrule]
  rcases Document.mem_checked hmem with ⟨hnone, hkept⟩ | ⟨v, hsome, -⟩
  · refine .inr ⟨?_, List.mem_filter.2 ⟨hkept, by simp [Hcl.Block.lower]⟩⟩
    by_contra hallows
    rw [hviolation, if_neg hallows] at hnone
    cases hnone
  · refine .inl ?_
    have hdiagnostic := @grammar_mem_diagnostics root path _ _ hread _ _ hmem hsome
    rw [hviolation] at hsome
    split at hsome
    · cases hsome
    · rename_i hallows
      cases hsome
      exact ⟨by simpa using hallows, hdiagnostic⟩

/-- **What is kept of a known block** stands in the file and has as many labels
as are allowed. -/
theorem exists_block_of_mem_keptDocument {identifier : String} {rule : LabelRule}
    (hrule : FileKind.orchestration.labelRule? identifier = some rule) {b : Block}
    (hb : b ∈ (keptDocument body).blocksOf identifier) :
    ∃ labels inner, .block (.mk identifier labels inner) ∈ body
      ∧ rule.allows labels.length = true ∧ b = (Hcl.Block.mk identifier labels inner).lower := by
  obtain ⟨hchecked, hidentifier⟩ := List.mem_filter.1 hb
  obtain ⟨hblocks, hallowed⟩ := List.mem_filter.1 hchecked
  obtain ⟨⟨identifier', labels, inner⟩, hblock, rfl⟩ := Hcl.mem_lowerBlocks.1 hblocks
  obtain rfl : identifier' = identifier := eq_of_beq hidentifier
  refine ⟨labels, inner, hblock, ?_, rfl⟩
  by_contra hnot
  have hviolation : FileKind.orchestration.violation? (Hcl.Block.mk identifier' labels inner).lower
      = some ⟨.orchestration, rule, labels.length⟩ := by
    rw [FileKind.violation?, Hcl.Block.lower, hrule]
    exact if_neg hnot
  rw [hviolation] at hallowed
  cases hallowed

end Fragment

end StackGraph
