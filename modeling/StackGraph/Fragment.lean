import StackGraph.Diagnostic
import StackGraph.Document
import StackGraph.Reference
/-!
# Fragments

What a single file contributes to the module of its directory. A file that could not be read or
parsed contributes nothing but its diagnostics; its fragment is a stub that marks the directory.
-/

namespace StackGraph

/-- A dependency that a file declares: a `dependency` block, or an entry of a `dependencies` block,
which has no name. -/
structure Declaration where
  name : Option String
  /-- The path as written. -/
  configPath : String
  /-- The module id that the path leads to, unless it leaves the scan root. -/
  target : Option String
deriving DecidableEq, Repr

/-- What a file contributes to its module. -/
structure Fragment where
  /-- The directory of the file, as a module id. -/
  moduleId : String
  /-- The file, from the scan root. -/
  file : String
  kind : Option FileKind
  /-- The source of the unit, from an orchestration file. -/
  source : Option String
  declared : List Declaration
  references : List Reference
  outputs : NameSet
  /-- The names of input variables. -/
  inputs : NameSet
  /-- Type and name of data sources. -/
  dataSources : NameSet
  remoteStates : NameSet
  /-- Type and name of resources. -/
  resources : NameSet
  /-- Nested modules and their sources. -/
  invocations : NameMap String
  diagnostics : List Diagnostic
  /-- Whether the file failed. -/
  stub : Bool

namespace Fragment

/-- The fragment of a file that says nothing. -/
def empty (moduleId file : String) (kind : Option FileKind) : Fragment where
  moduleId := moduleId
  file := file
  kind := kind
  source := none
  declared := []
  references := []
  outputs := ∅
  inputs := ∅
  dataSources := ∅
  remoteStates := ∅
  resources := ∅
  invocations := ∅
  diagnostics := []
  stub := false

end Fragment

end StackGraph
