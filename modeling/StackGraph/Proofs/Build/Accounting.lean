import StackGraph.Proofs.Build.Diagnostics
import StackGraph.Proofs.Extraction
/-!
# No declared dependency is lost silently

A dependency that is written in an orchestration file passes four places where
it can disappear: the vocabulary may drop its block, its path may be missing
or no literal, the path may mean no module, and an edge from a module to
itself is left out. This module says that each of them leaves a trace. What
can become of a declaration is `DeclarationAccounted`; what can become of a
`dependency` block and of an entry of a `dependencies` block are
`BlockAccounted` and `EntryAccounted`, which end in a declaration where
nothing else stops them. Each case names the one diagnostic that it leaves,
with its wording, and the condition under which it is the case.
-/

namespace StackGraph

open Std

/-- **What becomes of a declaration** in a directory. -/
inductive DeclarationAccounted (root : ScanRoot) (fragments : List Fragment) (id : String)
    (d : Declaration) : Prop
  /-- It means another module, and the graph has a declared edge from there. -/
  | edge {t : String} (hmeans : DeclarationMeans fragments d t)
      (hedge : .explicit ∈ (Graph.build root fragments).graph.evidenceFor t id) :
    DeclarationAccounted root fragments id d
  /-- It means no module, and the module has a diagnostic that says why. -/
  | unresolved {failure : DeclarationFailure} (hfails : DeclarationFails fragments d failure)
      (hdiagnostic : .resolution id (failure.message d)
        ∈ (Graph.build root fragments).diagnostics) :
    DeclarationAccounted root fragments id d
  /-- It means its own module, and the module has a diagnostic for some
  declaration that does so. -/
  | itself {e : Declaration} (hmeans : DeclarationMeans fragments d id)
      (hmem : e ∈ declarationsOf fragments id) (hsame : DeclarationMeans fragments e id)
      (hdiagnostic : .selfReference id (e.origin ++ " refers to the module itself; edge ignored")
        ∈ (Graph.build root fragments).diagnostics) :
    DeclarationAccounted root fragments id d

variable {root : ScanRoot} {fragments : List Fragment} {id : String}

open Modules in
/-- **Every declaration is accounted for.** -/
theorem declarationAccounted {d : Declaration} (hd : d ∈ declarationsOf fragments id) :
    DeclarationAccounted root fragments id d := by
  have hd' : d ∈ (merged root fragments id).declarations := by rwa [declarations_merged]
  have hscanned : IsScanned fragments id := isScanned_of_mem_declarationsOf hd
  cases hresolve : (ofFragments root fragments).resolveDeclaration d with
  | error failure =>
    refine .unresolved (fails_of_resolveDeclaration_eq_error hresolve) ?_
    refine Graph.mem_diagnostics_build.2 (.inr (.inl ⟨id, hscanned, ?_⟩))
    refine List.mem_append_left _ (List.mem_filterMap.2 ⟨d, hd', ?_⟩)
    rw [declarationDiagnostic?, hresolve, id_merged]
  | ok t =>
    have hmeans := resolveDeclaration_eq_ok_iff.1 hresolve
    by_cases hself : t = id
    · subst hself
      have hlink : (⟨t, t, .explicit, d.origin⟩ : Link) ∈ (ofFragments root fragments).links root :=
        mem_links.2 (.inl ⟨d, hd, hmeans, rfl, rfl⟩)
      obtain ⟨l, hl, hloop, hmodule, hkind, hdiagnostic⟩ :=
        Graph.exists_selfReference_of_link hlink (beq_self_eq_true t)
      -- the reported link may stand for another declaration than this one
      rcases mem_links.1 hl with ⟨e, he, hsame, -, horigin⟩ | ⟨-, -, -, hinferred, -⟩
      · have htarget : l.target = t := (beq_iff_eq.1 hloop).symm.trans hmodule
        rw [hmodule] at he
        rw [htarget] at hsame
        refine .itself hmeans he hsame ?_
        rw [Link.selfDiagnostic, hmodule, horigin] at hdiagnostic
        exact hdiagnostic
      · rw [hkind] at hinferred
        cases hinferred
    · exact .edge hmeans (Graph.mem_evidenceFor_build.2 ⟨hself, d, hd, hmeans⟩)

/-! ## Blocks and entries -/

section File

variable (root : ScanRoot) (fragments : List Fragment) (path : Path) (labels : List String)

/-- The diagnostic for a problem in an orchestration file. -/
def problemDiagnostic (problem : DeclarationProblem) : Diagnostic :=
  (Diagnostic.resolution (root.moduleIdOfFile path) problem.message).withPath
    (root.relativePath path)

/-- The diagnostic for a block with a wrong number of labels. -/
def violationDiagnostic (rule : LabelRule) : Diagnostic :=
  .grammar (root.relativePath path) (Violation.message ⟨.orchestration, rule, labels.length⟩)

/-- The declaration of a name and a path in an orchestration file. -/
def declarationIn (name : Option String) (written : String) : Declaration :=
  ⟨name, written, root.resolve (root.moduleIdOfFile path) written⟩

/-- **What becomes of a `dependency` block** of an orchestration file. -/
inductive BlockAccounted (inner : Hcl.Body) : Prop
  /-- It has not exactly one label and is dropped. -/
  | dropped (hlabels : labels.length ≠ 1)
      (hdiagnostic : violationDiagnostic root path labels ⟨"dependency", 1, 1⟩
        ∈ (Graph.build root fragments).diagnostics) :
    BlockAccounted inner
  /-- It has no path. -/
  | noPath {name : String} (hlabels : labels = [name])
      (hnone : ∀ value, .attribute "config_path" value ∉ inner)
      (hdiagnostic : problemDiagnostic root path (.noPath name)
        ∈ (Graph.build root fragments).diagnostics) :
    BlockAccounted inner
  /-- Its path is not a literal. -/
  | notLiteral {name : String} {value : Hcl.Expr} (hlabels : labels = [name])
      (hvalue : .attribute "config_path" value ∈ inner)
      (hliteral : ∀ written, value.lower ≠ .string written)
      (hdiagnostic : problemDiagnostic root path (.pathNotLiteral name value.lower)
        ∈ (Graph.build root fragments).diagnostics) :
    BlockAccounted inner
  /-- It is a declaration. -/
  | declared {name written : String} {value : Hcl.Expr} (hlabels : labels = [name])
      (hvalue : .attribute "config_path" value ∈ inner) (hliteral : value.lower = .string written)
      (haccounted : DeclarationAccounted root fragments (root.moduleIdOfFile path)
        (declarationIn root path (some name) written)) :
    BlockAccounted inner

/-- **What becomes of an entry of the paths of a `dependencies` block.** -/
inductive EntryAccounted (item : Value) : Prop
  /-- The block has labels and is dropped. -/
  | dropped (hlabels : labels ≠ [])
      (hdiagnostic : violationDiagnostic root path labels ⟨"dependencies", 0, 0⟩
        ∈ (Graph.build root fragments).diagnostics) :
    EntryAccounted item
  /-- It is not a literal. -/
  | notLiteral (hliteral : ∀ written, item ≠ .string written)
      (hdiagnostic : problemDiagnostic root path (.entryNotLiteral item)
        ∈ (Graph.build root fragments).diagnostics) :
    EntryAccounted item
  /-- It is a declaration. -/
  | declared {written : String} (hliteral : item = .string written)
      (haccounted : DeclarationAccounted root fragments (root.moduleIdOfFile path)
        (declarationIn root path none written)) :
    EntryAccounted item

end File

/-! ### Every block and every entry -/

section Accounted

open Fragment

variable {path : Path} {text : String} {body inner : Hcl.Body} {labels : List String}

/-- Whatever the fragment of a file reports is reported in the end. -/
theorem mem_diagnostics_of_file {diag : Diagnostic}
    (hfile : ofOrchestration root path text ∈ fragments)
    (h : diag ∈ (ofOrchestration root path text).diagnostics) :
    diag ∈ (Graph.build root fragments).diagnostics :=
  Graph.mem_diagnostics_build.2 (.inl ⟨_, hfile, h⟩)

/-- An outcome that is no problem is a declaration of the module. -/
theorem declarationIn_accounted (hread : Hcl.Body.read? text = some body)
    (hfile : ofOrchestration root path text ∈ fragments) {name : Option String} {written : String}
    (h : .ok (name, written) ∈ (keptDocument body).declarations) :
    DeclarationAccounted root fragments (root.moduleIdOfFile path)
      (declarationIn root path name written) := by
  refine declarationAccounted (mem_declarationsOf.2 ⟨_, hfile, ?_, mem_declared hread h⟩)
  exact moduleId_ofOrchestration hread

/-- A `dependency` block that the vocabulary keeps is accounted for, by what
stands under the name of its path. -/
theorem keptBlock_accounted (hread : Hcl.Body.read? text = some body)
    (hfile : ofOrchestration root path text ∈ fragments) {name : String}
    (hblock : .block (.mk "dependency" [name] inner) ∈ body)
    (hkept : (Hcl.Block.mk "dependency" [name] inner).lower
      ∈ (keptDocument body).blocksOf "dependency") :
    BlockAccounted root fragments path [name] inner := by
  set b := (Hcl.Block.mk "dependency" [name] inner).lower
  have hattributes : b.body.get? "config_path" = (Hcl.lowerAttributes inner)["config_path"]? := rfl
  have houtcome := Document.dependencyOf_mem_declarations hkept
  cases hget : b.body.get? "config_path" with
  | none =>
    rw [Document.dependencyOf_of_none hget] at houtcome
    refine .noPath rfl (fun value hvalue => ?_)
      (mem_diagnostics_of_file hfile (problem_mem_diagnostics hread houtcome))
    have hdistinct := (Hcl.Body.distinct_of_read? hread).body hblock
    rw [hattributes, Hcl.getElem?_lowerAttributes hdistinct hvalue] at hget
    cases hget
  | some v =>
    obtain ⟨value, hvalue, rfl⟩ :=
      Hcl.exists_attribute_of_getElem?_lowerAttributes (hattributes.symm.trans hget)
    by_cases hliteral : ∃ written, value.lower = .string written
    · obtain ⟨written, hwritten⟩ := hliteral
      rw [hwritten] at hget
      rw [Document.dependencyOf_of_string hget] at houtcome
      exact .declared rfl hvalue hwritten (declarationIn_accounted hread hfile houtcome)
    · have hnot := not_exists.1 hliteral
      rw [Document.dependencyOf_of_not_string hget hnot] at houtcome
      exact .notLiteral rfl hvalue hnot
        (mem_diagnostics_of_file hfile (problem_mem_diagnostics hread houtcome))

/-- **A `dependency` block is accounted for.** -/
theorem blockAccounted (hread : Hcl.Body.read? text = some body)
    (hfile : ofOrchestration root path text ∈ fragments)
    (hblock : .block (.mk "dependency" labels inner) ∈ body) :
    BlockAccounted root fragments path labels inner := by
  have hrule : FileKind.orchestration.labelRule? "dependency" = some ⟨"dependency", 1, 1⟩ := by
    decide
  rcases @dropped_or_kept root path _ _ _ _ hread _ _ hrule hblock with
    ⟨hallows, hdiagnostic⟩ | ⟨hallows, hkept⟩
  · refine .dropped (fun hone => ?_) (mem_diagnostics_of_file hfile hdiagnostic)
    rw [LabelRule.allows, hone] at hallows
    cases hallows
  · have hone : labels.length = 1 := by
      simp only [LabelRule.allows, Bool.and_eq_true, decide_eq_true_eq] at hallows
      omega
    obtain ⟨name, rfl⟩ := List.length_eq_one_iff.1 hone
    exact keptBlock_accounted hread hfile hblock hkept

/-- **An entry of the paths of a `dependencies` block is accounted for.** -/
theorem entryAccounted (hread : Hcl.Body.read? text = some body)
    (hfile : ofOrchestration root path text ∈ fragments)
    (hblock : .block (.mk "dependencies" labels inner) ∈ body) {value : Hcl.Expr}
    (hvalue : .attribute "paths" value ∈ inner) {items : List Value}
    (hlist : value.lower = .list items) {item : Value} (hitem : item ∈ items) :
    EntryAccounted root fragments path labels item := by
  have hrule : FileKind.orchestration.labelRule? "dependencies" = some ⟨"dependencies", 0, 0⟩ := by
    decide
  rcases @dropped_or_kept root path _ _ _ _ hread _ _ hrule hblock with
    ⟨hallows, hdiagnostic⟩ | ⟨-, hkept⟩
  · refine .dropped (fun hnil => ?_) (mem_diagnostics_of_file hfile hdiagnostic)
    rw [LabelRule.allows, hnil] at hallows
    cases hallows
  · have hdistinct := (Hcl.Body.distinct_of_read? hread).body hblock
    have hget := Hcl.getElem?_lowerAttributes hdistinct hvalue
    rw [hlist] at hget
    have houtcome := Document.entryOf_mem_declarations hkept hget hitem
    by_cases hliteral : ∃ written, item = .string written
    · obtain ⟨written, rfl⟩ := hliteral
      exact .declared rfl (declarationIn_accounted hread hfile houtcome)
    · have hnot := not_exists.1 hliteral
      rw [Document.entryOf_of_not_string hnot] at houtcome
      exact .notLiteral hnot
        (mem_diagnostics_of_file hfile (problem_mem_diagnostics hread houtcome))

end Accounted

/-! ## Files as a whole -/

/-- **No declared dependency of an orchestration file is lost silently**,
whatever other files there are: each of its `dependency` blocks and each entry
of a literal list of paths in a `dependencies` block is accounted for. -/
theorem declaredDependencies_accounted (root : ScanRoot) (fragments : List Fragment) (path : Path)
    (text : String) (body : Hcl.Body) (hread : Hcl.Body.read? text = some body)
    (hfile : Fragment.ofFile root (.ofText root path .orchestration text) ∈ fragments) :
    (∀ labels inner, .block (.mk "dependency" labels inner) ∈ body →
        BlockAccounted root fragments path labels inner)
      ∧ ∀ labels inner value items, .block (.mk "dependencies" labels inner) ∈ body →
        .attribute "paths" value ∈ inner → value.lower = .list items →
          ∀ item ∈ items, EntryAccounted root fragments path labels item := by
  constructor
  · intro labels inner hblock
    exact blockAccounted hread hfile hblock
  · intro labels inner value items hblock hvalue hlist item hitem
    exact entryAccounted hread hfile hblock hvalue hlist hitem

/-- A unit with a block and an entry. -/
def unitText : String :=
  "dependency \"net\" \x7b\n  config_path = \"../net\"\n\x7d\n" ++
    "dependencies \x7b\n  paths = [\"../log\"]\n\x7d\n"

/-- What the text of the unit says. -/
def unitBody : Hcl.Body :=
  [.block (.mk "dependency" ["net"] [.attribute "config_path" (.string "../net")]),
    .block (.mk "dependencies" [] [.attribute "paths" (.list [.string "../log"])])]

/-- The unit with a neighbour. -/
def unitFragments : List Fragment :=
  [.ofFile ⟨⟨"/stack"⟩⟩ (.ofText ⟨⟨"/stack"⟩⟩ ⟨"/stack/app/terragrunt.hcl"⟩ .orchestration unitText),
    .empty "net" "net/main.tf" (some .moduleDefinition)]

/-- Whether a body is that of the unit. -/
def isUnitBody : Hcl.Body → Bool
  | [.block (.mk first labels [.attribute key (.string net)]),
      .block (.mk second [] [.attribute key' (.list [.string log])])] =>
    first == "dependency" && labels == ["net"] && key == "config_path" && net == "../net"
      && second == "dependencies" && key' == "paths" && log == "../log"
  | _ => false

theorem eq_unitBody_of_isUnitBody {body : Hcl.Body} (h : isUnitBody body) : body = unitBody := by
  unfold isUnitBody at h
  split at h
  · simp only [Bool.and_eq_true, beq_iff_eq] at h
    obtain ⟨⟨⟨⟨⟨⟨rfl, rfl⟩, rfl⟩, rfl⟩, rfl⟩, rfl⟩, rfl⟩ := h
    rfl
  · cases h

theorem read?_unitText : Hcl.Body.read? unitText = some unitBody := by
  have hread : (Hcl.Body.read? unitText).any isUnitBody := by decide +kernel
  obtain ⟨body, hbody, hunit⟩ := (Option.any_eq_true _ _).1 hread
  rw [hbody, eq_unitBody_of_isUnitBody hunit]

/-- Both dependencies of the example are accounted for. -/
theorem declaredDependencies_accounted_unit :
    Hcl.Body.read? unitText = some unitBody
      ∧ BlockAccounted ⟨⟨"/stack"⟩⟩ unitFragments ⟨"/stack/app/terragrunt.hcl"⟩ ["net"]
        [.attribute "config_path" (.string "../net")]
      ∧ EntryAccounted ⟨⟨"/stack"⟩⟩ unitFragments ⟨"/stack/app/terragrunt.hcl"⟩ []
        (.string "../log") := by
  obtain ⟨hblocks, hentries⟩ := declaredDependencies_accounted ⟨⟨"/stack"⟩⟩ unitFragments
    ⟨"/stack/app/terragrunt.hcl"⟩ unitText unitBody read?_unitText List.mem_cons_self
  refine ⟨read?_unitText, hblocks _ _ List.mem_cons_self, ?_⟩
  exact hentries [] _ _ _ (List.mem_cons_of_mem _ List.mem_cons_self) List.mem_cons_self rfl _
    List.mem_cons_self

end StackGraph
