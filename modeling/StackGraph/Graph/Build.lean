import StackGraph.Graph
/-!
# Building the graph

The graph of a set of fragments. Fragments of one directory are merged into a module; declarations
and references of each module are resolved to modules; every resolved one becomes an edge from the
module it means to the module it stands in.

A declaration means the module that its path leads to, or else the only module whose directory has
the same name. A reference through a dependency means what the last declaration of its name means.
A reference through a nested module means the one module among three candidates: the one that the
local source of the nested module leads to, the one that a declaration of its name means, and the
one in a directory of its name beside the module.

A declaration or reference that means no module leaves a diagnostic. An edge from a module to itself
is left out, with one diagnostic per module and kind.
-/

namespace StackGraph

open Std

/-- Why a declaration means no module. -/
inductive DeclarationFailure where
  /-- Its path leaves the scan root. -/
  | outside
  /-- No module has its path, and several have its name. -/
  | ambiguous (ids : List String)
  /-- No module has its path or its name. -/
  | unknown
deriving DecidableEq, Repr

/-- Why a reference means no module. -/
inductive ReferenceFailure where
  /-- There is no dependency of its name. -/
  | noBlock
  /-- There is no candidate. -/
  | noCandidate
  /-- There are several candidates. -/
  | ambiguous (ids : List String)
deriving DecidableEq, Repr

/-- What a reference means. -/
inductive Meaning where
  /-- Another module, or the same one. -/
  | module (id : String)
  /-- Something inside the unit, or something whose absence is already reported. -/
  | inside
  /-- Nothing that is known. -/
  | nothing (failure : ReferenceFailure)
deriving DecidableEq, Repr

namespace DeclarationFailure

/-- The wording of a failure. -/
def message (d : Declaration) (failure : DeclarationFailure) : String :=
  let label := match d.name with
    | some name => "dependency \"" ++ name ++ "\""
    | none => "dependencies entry"
  let path := label ++ " config_path \"" ++ d.configPath ++ "\""
  match failure with
  | outside => path ++ " points outside the scan root"
  | ambiguous ids =>
    path ++ " does not match a scanned module and its name is ambiguous: " ++ ", ".intercalate ids
  | unknown => path ++ " does not match any scanned module"

end DeclarationFailure

namespace ReferenceFailure

/-- The wording of a failure. -/
def message (r : Reference) : ReferenceFailure → String
  | noBlock => r.expression ++ " has no matching dependency block"
  | noCandidate =>
    r.expression ++ " does not match a dependency, local module or sibling directory"
  | ambiguous ids => r.expression ++ " is ambiguous between " ++ ", ".intercalate ids

end ReferenceFailure

/-- A declaration or reference of a module that means a module. -/
structure Link where
  /-- The module it stands in. -/
  module : String
  /-- The module it means. -/
  target : String
  kind : EdgeKind
  /-- What it is, for a message. -/
  origin : String
deriving DecidableEq, Repr

/-- What a declaration is, for a message. -/
def Declaration.origin (d : Declaration) : String :=
  match d.name with
  | some name => "dependency \"" ++ name ++ "\""
  | none => "dependencies path \"" ++ d.configPath ++ "\""

namespace Link

/-- Whether the link leads to its own module. -/
def isSelf (l : Link) : Bool := l.module == l.target

/-- The diagnostic for a link of a module to itself. -/
def selfDiagnostic (l : Link) : Diagnostic :=
  .selfReference l.module (l.origin ++ " refers to the module itself; edge ignored")

end Link

/-- The elements whose key no earlier element has. -/
def firstOfEach {α κ : Type} [DecidableEq κ] (key : α → κ) : List κ → List α → List α
  | _, [] => []
  | seen, x :: xs =>
    if key x ∈ seen then firstOfEach key seen xs
    else x :: firstOfEach key (key x :: seen) xs

/-- The modules that are known while the graph is built. -/
abbrev Modules := NameMap Module

namespace Modules

/-- The modules with what a fragment contributes to one of them. -/
def addFragment (root : ScanRoot) (modules : Modules) (f : Fragment) : Modules :=
  let known := modules[f.moduleId]?.getD (.new f.moduleId (root.moduleDir f.moduleId))
  modules.insert f.moduleId (known.absorb f)

/-- The modules that some fragments make up, the fragments taken in the order of their files. -/
def ofFragments (root : ScanRoot) (fragments : List Fragment) : Modules :=
  let merged := (sortBy (compareOn Fragment.file) fragments).foldl (addFragment root) ∅
  merged.map fun _ m => m.settleSource

/-- The ids of the modules whose directory has a name. -/
def named (modules : Modules) (basename : String) : List String :=
  modules.keys.filter fun id => ModuleId.basename id == basename

/-- The module that a declaration means. -/
def resolveDeclaration (modules : Modules) (d : Declaration) :
    Except DeclarationFailure String :=
  match d.target with
  | none => .error .outside
  | some target =>
    if target ∈ modules then .ok target
    else
      match modules.named (ModuleId.basename target) with
      | [] => .error .unknown
      | [only] => .ok only
      | ids => .error (.ambiguous ids)

/-- What the names of the declarations of a module mean; the last declaration of a name counts. -/
def namedDependencies (modules : Modules) (m : Module) : NameMap (Option String) :=
  ExtTreeMap.ofList (m.declarations.filterMap fun d =>
    d.name.map fun name => (name, (modules.resolveDeclaration d).toOption)) compare

/-- The module that the local source of a nested module leads to. -/
def invocationTarget? (root : ScanRoot) (modules : Modules) (m : Module) (source : String) :
    Option String :=
  (root.resolve m.id source).filter (· ∈ modules)

/-- The module in a directory of the given name beside a module. -/
def siblingModule? (modules : Modules) (m : Module) (name : String) : Option String :=
  (ModuleId.sibling m.id name).filter (· ∈ modules)

/-- What a reference through a dependency means. -/
def resolveDependency (named : NameMap (Option String)) (r : Reference) : Meaning :=
  match named[r.name]? with
  | some (some id) => .module id
  | some none => .inside
  | none => .nothing .noBlock

/-- What a reference through a nested module with some candidates means. -/
def choose (candidates : List String) (inside : Bool) : Meaning :=
  match candidates with
  | [] => if inside then .inside else .nothing .noCandidate
  | [only] => .module only
  | ids => .nothing (.ambiguous ids)

/-- What a reference through a nested module means. -/
def resolveNested (root : ScanRoot) (modules : Modules) (m : Module)
    (named : NameMap (Option String)) (r : Reference) : Meaning :=
  let invocation := m.invocations[r.name]?
  if invocation.any fun source => !isLocalSource source then .inside
  else
    let invoked := invocation.bind (invocationTarget? root modules m)
    let candidates := invoked.toList ++ (named[r.name]?.getD none).toList ++
      (siblingModule? modules m r.name).toList
    choose (ExtTreeSet.ofList candidates compare).toList
      ((invocation.isSome && invoked.isNone) || named[r.name]? == some none)

/-- What a reference of a module means. -/
def resolveReference (root : ScanRoot) (modules : Modules) (m : Module)
    (named : NameMap (Option String)) (r : Reference) : Meaning :=
  match r.via with
  | .dependency => resolveDependency named r
  | .module => resolveNested root modules m named r

/-- The link that a declaration is, if it means a module. -/
def declarationLink? (modules : Modules) (m : Module) (d : Declaration) : Option Link :=
  match modules.resolveDeclaration d with
  | .error _ => none
  | .ok target => some ⟨m.id, target, .explicit, d.origin⟩

/-- The diagnostic for a declaration that means no module. -/
def declarationDiagnostic? (modules : Modules) (m : Module) (d : Declaration) :
    Option Diagnostic :=
  match modules.resolveDeclaration d with
  | .error failure => some (.resolution m.id (failure.message d))
  | .ok _ => none

/-- The links that the declarations and then the references of a module are. -/
def linksOf (root : ScanRoot) (modules : Modules) (m : Module) : List Link :=
  let named := modules.namedDependencies m
  m.declarations.filterMap (modules.declarationLink? m) ++
    m.references.toList.filterMap fun r =>
      match modules.resolveReference root m named r with
      | .module target => some ⟨m.id, target, .inferred, "reference " ++ r.expression⟩
      | _ => none

/-- The references of a module that mean nothing, of those to one name only the first. -/
def unresolvedOf (root : ScanRoot) (modules : Modules) (m : Module) :
    List (Reference × ReferenceFailure) :=
  let named := modules.namedDependencies m
  firstOfEach (fun p : Reference × ReferenceFailure => (p.1.via, p.1.name)) []
    (m.references.toList.filterMap fun r =>
      match modules.resolveReference root m named r with
      | .nothing failure => some (r, failure)
      | _ => none)

/-- The diagnostics for what a module names in vain. -/
def diagnosticsOf (root : ScanRoot) (modules : Modules) (m : Module) : List Diagnostic :=
  m.declarations.filterMap (modules.declarationDiagnostic? m) ++
    (modules.unresolvedOf root m).map fun (r, failure) => .resolution m.id (failure.message r)

/-- All links between modules. -/
def links (root : ScanRoot) (modules : Modules) : List Link :=
  modules.values.flatMap (modules.linksOf root)

/-- The module with its dependencies and its complexity, given all links. -/
def settle (links : List Link) (m : Module) : Module :=
  let targets (kind : EdgeKind) : List String :=
    (links.filter fun l => l.module == m.id && l.kind == kind && !l.isSelf).map Link.target
  let declared : NameSet := ExtTreeSet.ofList (targets .explicit) compare
  let inferred : NameSet := ExtTreeSet.ofList (targets .inferred) compare
  let settled :=
    { m with declaredDependencies := declared, inferredReferences := inferred \ declared }
  { settled with complexityScore := settled.complexity }

end Modules

/-- A graph and the diagnostics of everything that went into it. -/
structure Build where
  graph : Graph
  diagnostics : List Diagnostic

namespace Graph

/-- The graph of some modules with the links between them. -/
def ofLinks (modules : Modules) (links : List Link) : Graph :=
  let nodes := (modules.values.map (Modules.settle links)).foldl addModule empty
  links.foldl (fun g l => g.addEdge l.target l.module l.kind) nodes

/-- The graph of a set of fragments, with its diagnostics. -/
def build (root : ScanRoot) (fragments : List Fragment) : Build :=
  let modules := Modules.ofFragments root fragments
  let links := modules.links root
  let selfLinks := firstOfEach (fun l : Link => (l.module, l.kind)) [] (links.filter Link.isSelf)
  { graph := ofLinks modules links
    diagnostics := Diagnostic.arrange
      ((sortBy (compareOn Fragment.file) fragments).flatMap Fragment.diagnostics ++
        modules.values.flatMap (modules.diagnosticsOf root) ++ selfLinks.map Link.selfDiagnostic) }

end Graph

end StackGraph
