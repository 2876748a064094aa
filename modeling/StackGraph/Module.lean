import StackGraph.Fragment
import StackGraph.ScanRoot
/-!
# Modules

A module is one deployable unit: everything that the configuration files of one directory say.
`Module.absorb` merges a fragment into it: sets are united, of two sources for the same thing the
smaller stays, and the module is a stub as long as every fragment was one. A unit without a source
of its own takes the source of its only nested module (`Module.settleSource`).
-/

namespace StackGraph

open Std

/-- A deployable unit. The empty source means that none is known. -/
structure Module where
  /-- The directory from the scan root. -/
  id : String
  /-- The directory. -/
  path : Path
  source : String
  /-- Modules that a declaration names. -/
  declaredDependencies : NameSet
  /-- Modules that only references name. -/
  inferredReferences : NameSet
  outputs : NameSet
  /-- The names of its input variables. -/
  inputs : NameSet
  dataSources : NameSet
  remoteStates : NameSet
  resources : NameSet
  /-- Nested modules and their sources. -/
  invocations : NameMap String
  /-- The files of the unit, from the scan root. -/
  files : NameSet
  kinds : ExtTreeSet FileKind FileKind.compare
  /-- Whether every file failed. -/
  stub : Bool
  complexityScore : Nat
  /-- The declarations of its files, not yet resolved. -/
  declarations : List Declaration
  /-- The references in its files, not yet resolved. -/
  references : ReferenceSet

namespace Module

/-- A module without files. -/
def new (id : String) (path : Path) : Module where
  id := id
  path := path
  source := ""
  declaredDependencies := ∅
  inferredReferences := ∅
  outputs := ∅
  inputs := ∅
  dataSources := ∅
  remoteStates := ∅
  resources := ∅
  invocations := ∅
  files := ∅
  kinds := ∅
  stub := true
  complexityScore := 0
  declarations := []
  references := ∅

/-- The source after another one was found: the smaller one, where no source is no competitor. -/
def mergeSource (source : String) : Option String → String
  | none => source
  | some found => if source = "" ∨ found < source then found else source

/-- The nested modules after another one was found: of two sources the smaller one stays. -/
def mergeInvocation (invocations : NameMap String) (found : String × String) : NameMap String :=
  match invocations[found.1]? with
  | some source => if found.2 < source then invocations.insert found.1 found.2 else invocations
  | none => invocations.insert found.1 found.2

/-- The module with what a fragment contributes. -/
def absorb (m : Module) (f : Fragment) : Module where
  id := m.id
  path := m.path
  source := mergeSource m.source f.source
  declaredDependencies := m.declaredDependencies
  inferredReferences := m.inferredReferences
  outputs := m.outputs ∪ f.outputs
  inputs := m.inputs ∪ f.inputs
  dataSources := m.dataSources ∪ f.dataSources
  remoteStates := m.remoteStates ∪ f.remoteStates
  resources := m.resources ∪ f.resources
  invocations := f.invocations.toList.foldl mergeInvocation m.invocations
  files := m.files.insert f.file
  kinds := match f.kind with
    | some kind => m.kinds.insert kind
    | none => m.kinds
  stub := m.stub && f.stub
  complexityScore := m.complexityScore
  declarations := m.declarations ++ f.declared
  references := m.references.insertMany f.references

/-- The module with the source of its only nested module, unless it has one of its own. -/
def settleSource (m : Module) : Module :=
  if m.source = "" then
    match m.invocations.toList with
    | [(_, source)] => { m with source }
    | _ => m
  else m

/-- The modules that come before this one. -/
def dependencies (m : Module) : NameSet := m.declaredDependencies ∪ m.inferredReferences

/-- A weighted count of the parts of the unit. -/
def complexity (m : Module) : Nat :=
  1 + 2 * (m.declaredDependencies.size + m.inferredReferences.size) + m.inputs.size +
    m.outputs.size + 3 * m.dataSources.size + 2 * m.resources.size

/-- The last name of the id. -/
def basename (m : Module) : String := ModuleId.basename m.id

end Module

end StackGraph
