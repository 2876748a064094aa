import StackGraph.Fragment
import StackGraph.Reference.Scan
import StackGraph.ScanRoot
import StackGraph.Vocabulary
/-!
# Fragments of parsed files

What the blocks of a parsed file contribute. Of an orchestration file these are the source of the
unit, the dependencies it declares and the names of its inputs; of a module definition its nested
modules, outputs, variables, resources and data sources. References are looked for in every text of
both.

A dependency whose path is missing or is not a literal cannot be declared; each such block or entry
leaves a diagnostic, so none is lost without a trace.
-/

namespace StackGraph

/-- A configuration file after parsing. -/
structure ConfigFile where
  path : Path
  /-- The path from the scan root. -/
  relativePath : String
  kind : FileKind
  document : Document
  diagnostics : List Diagnostic
  /-- Whether the file could not be read or parsed. -/
  failed : Bool

/-- Why a dependency could not be declared. -/
inductive DeclarationProblem where
  | noPath (name : String)
  | pathNotLiteral (name : String) (value : Value)
  | entryNotLiteral (value : Value)
  | listNotLiteral

namespace DeclarationProblem

/-- A value in a message: its text, if it has one. -/
def shown (value : Value) : String := value.text?.getD "<non-string value>"

/-- The wording of a problem. -/
def message : DeclarationProblem → String
  | noPath name => "dependency \"" ++ name ++ "\" has no config_path"
  | pathNotLiteral name value =>
    "config_path of dependency \"" ++ name ++ "\" is not a literal path: " ++ shown value
  | entryNotLiteral value => "dependencies.paths entry is not a literal path: " ++ shown value
  | listNotLiteral => "dependencies.paths is not a literal list"

end DeclarationProblem

namespace Document

/-- The source that the `terraform` blocks of an orchestration file give; the last one counts. -/
def unitSource? (d : Document) : Option String :=
  ((d.blocksOf "terraform").filterMap fun b => (b.body.get? "source").bind Value.text?).getLast?

/-- The outcome of a `dependency` block: its name with its path, or what is wrong with it. -/
def dependencyOf (b : Block) : Except DeclarationProblem (Option String × String) :=
  let name := b.name?.getD ""
  match b.body.get? "config_path" with
  | some (.string path) => .ok (some name, path)
  | some value => .error (.pathNotLiteral name value)
  | none => .error (.noPath name)

/-- The outcome of an entry of a `dependencies` block. -/
def entryOf : Value → Except DeclarationProblem (Option String × String)
  | .string path => .ok (none, path)
  | value => .error (.entryNotLiteral value)

/-- The outcomes of a `dependencies` block. -/
def entriesOf (b : Block) : List (Except DeclarationProblem (Option String × String)) :=
  match b.body.get? "paths" with
  | none => []
  | some (.list items) => items.map entryOf
  | some _ => [.error .listNotLiteral]

/-- The outcomes of all dependencies that an orchestration file declares: its blocks, then the
entries of its lists. -/
def declarations (d : Document) : List (Except DeclarationProblem (Option String × String)) :=
  (d.blocksOf "dependency").map dependencyOf ++ (d.blocksOf "dependencies").flatMap entriesOf

/-- The names of the inputs of an orchestration file. -/
def inputs (d : Document) : List String :=
  (((d.get? "inputs").bind Value.map?).getD []).map Prod.fst

/-- The only label of the blocks of one kind, for those that have just one. -/
def singleLabels (d : Document) (identifier : String) : List String :=
  (d.blocksOf identifier).filterMap fun b =>
    match b.labels with
    | [name] => some name
    | _ => none

/-- The two labels of the blocks of one kind with a point between them, for those that have just
two. -/
def doubleLabels (d : Document) (identifier : String) : List String :=
  (d.blocksOf identifier).filterMap fun b =>
    match b.labels with
    | [kind, name] => some (kind ++ "." ++ name)
    | _ => none

/-- The nested modules with their sources; a missing source is empty. -/
def nestedModules (d : Document) : List (String × String) :=
  (d.blocksOf "module").filterMap fun b =>
    match b.labels with
    | [name] => some (name, ((b.body.get? "source").bind Value.text?).getD "")
    | _ => none

end Document

namespace Fragment

open Std

/-- The declarations among the outcomes, with the modules that their paths lead to. -/
def declaredOf (root : ScanRoot) (moduleId : String)
    (outcomes : List (Except DeclarationProblem (Option String × String))) : List Declaration :=
  outcomes.filterMap fun
    | .ok (name, path) => some ⟨name, path, root.resolve moduleId path⟩
    | .error _ => none

/-- The diagnostics for the problems among the outcomes. -/
def problemsOf (moduleId file : String)
    (outcomes : List (Except DeclarationProblem (Option String × String))) : List Diagnostic :=
  outcomes.filterMap fun
    | .ok _ => none
    | .error problem => some ((Diagnostic.resolution moduleId problem.message).withPath file)

/-- What an orchestration file adds to the fragment of its path. -/
def addOrchestration (root : ScanRoot) (d : Document) (f : Fragment) : Fragment :=
  { f with
    source := d.unitSource?
    declared := declaredOf root f.moduleId d.declarations
    diagnostics := f.diagnostics ++ problemsOf f.moduleId f.file d.declarations
    inputs := ExtTreeSet.ofList d.inputs compare }

/-- What a module definition adds to the fragment of its path. -/
def addModuleDefinition (d : Document) (f : Fragment) : Fragment :=
  { f with
    invocations := ExtTreeMap.ofList d.nestedModules compare
    outputs := ExtTreeSet.ofList (d.singleLabels "output") compare
    inputs := ExtTreeSet.ofList (d.singleLabels "variable") compare
    resources := ExtTreeSet.ofList (d.doubleLabels "resource") compare
    dataSources := ExtTreeSet.ofList (d.doubleLabels "data") compare }

/-- What was found in the texts of a file. -/
def addFindings (found : Findings) (f : Fragment) : Fragment :=
  { f with
    references := found.references.toList
    dataSources := f.dataSources ∪ found.dataSources
    remoteStates := found.remoteStates }

/-- The fragment of a parsed file. -/
def ofFile (root : ScanRoot) (file : ConfigFile) : Fragment :=
  let start : Fragment :=
    { empty (root.moduleIdOfFile file.path) file.relativePath (some file.kind) with
      diagnostics := file.diagnostics
      stub := file.failed }
  if file.failed then start
  else
    let own :=
      match file.kind with
      | .orchestration => start.addOrchestration root file.document
      | .moduleDefinition => start.addModuleDefinition file.document
    own.addFindings (Findings.scan file.document.texts)

end Fragment

end StackGraph
