import StackGraph.Failure
import StackGraph.Graph.Impact
import StackGraph.Graph.Suggestion
import StackGraph.Graph.Walks
import StackGraph.Timestamp
/-!
# Reports

The complete result of an analysis: the modules and edges of the graph with everything that was
derived from them, and the diagnostics. A report is data of its own: it can be read back, and
nothing forces its parts to agree. `Graph.report` makes one whose parts all come from one graph.
-/

namespace StackGraph

/-- A module in a report. -/
structure ModuleReport where
  source : String
  path : Path
  /-- The modules that come before it. -/
  dependencies : List String
  /-- The modules that read from it. -/
  dependents : List String
  declaredDependencies : List String
  inferredReferences : List String
  outputs : List String
  inputs : List String
  dataSources : List String
  remoteStates : List String
  resources : List String
  invocations : NameMap String
  files : List String
  kinds : List FileKind
  stub : Bool
  complexityScore : Nat

/-- The result of an analysis. -/
structure Report where
  scanRoot : Path
  generatedAt : Option Timestamp
  modules : NameMap ModuleReport
  edges : List Edge
  cycles : List Cycle
  /-- The simple paths by their ends. -/
  paths : NameMap (List (List String))
  totalModules : Nat
  totalDependencies : Nat
  totalCycles : Nat
  advice : List CycleAdvice
  impact : Impact
  complexity : ComplexityBuckets
  /-- The modules in the order of deployment. -/
  layers : List (List String)
  diagnostics : List Diagnostic

namespace Report

/-- Whether the report lists a cycle. -/
def hasCycles (r : Report) : Bool := !r.cycles.isEmpty

/-- The edges that lie on a cycle. -/
def cycleEdges (r : Report) : PairSet :=
  Std.ExtTreeSet.ofList (r.cycles.flatMap Cycle.edges) comparePair

/-- The modules that lie on a cycle. -/
def cycleMembers (r : Report) : NameSet :=
  Std.ExtTreeSet.ofList (r.cycles.flatMap Cycle.members) compare

/-- Whether an edge lies on a cycle. -/
def onCycle (r : Report) (e : Edge) : Bool :=
  r.cycles.any fun c => c.containsEdge e.source e.target

/-- The reach of a module that the report knows. -/
def reachOf (r : Report) (id : String) : Except Failure Reach :=
  match r.impact.reach[id]? with
  | some reach => .ok reach
  | none => .error (.unknownModule id)

/-- The number of edges that are not declared. -/
def inferredEdgeCount (r : Report) : Nat := r.edges.countP fun e => e.kind == .inferred

/-- The number of diagnostics that are errors or worse. -/
def errorCount (r : Report) : Nat :=
  r.diagnostics.countP fun d => Severity.error.rank ≤ d.severity.rank

end Report

namespace Graph

/-- A module of the graph as it is reported. -/
def moduleReport (g : Graph) (m : Module) : ModuleReport where
  source := m.source
  path := m.path
  dependencies := g.upstream m.id
  dependents := g.dependents m.id
  declaredDependencies := m.declaredDependencies.toList
  inferredReferences := m.inferredReferences.toList
  outputs := m.outputs.toList
  inputs := m.inputs.toList
  dataSources := m.dataSources.toList
  remoteStates := m.remoteStates.toList
  resources := m.resources.toList
  invocations := m.invocations
  files := m.files.toList
  kinds := m.kinds.toList
  stub := m.stub
  complexityScore := m.complexityScore

/-- The report of a graph. -/
def report (g : Graph) (scanRoot : Path) (generatedAt : Option Timestamp)
    (diagnostics : List Diagnostic) : Report where
  scanRoot := scanRoot
  generatedAt := generatedAt
  modules := g.modules.map fun _ m => g.moduleReport m
  edges := g.edges
  cycles := g.cycles
  paths := g.paths
  totalModules := g.modules.size
  totalDependencies := g.evidence.size
  totalCycles := g.cycles.length
  advice := g.advice g.cycles
  impact := g.impact
  complexity := g.complexityBuckets
  layers := g.layers
  diagnostics := diagnostics

end Graph

end StackGraph
