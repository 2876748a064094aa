import StackGraph.Json
import StackGraph.Report
/-!
# Reports as JSON

The JSON form of a report and of its parts, with the members of each object in a fixed order. Of a
diagnostic, a file or module that is absent is left out.
-/

namespace StackGraph

/-- An edge. -/
def Edge.toJson (e : Edge) : Json :=
  .object [("from", .string e.source), ("to", .string e.target), ("kind", .string e.kind.text),
    ("evidence", .strings (e.evidence.toList.map EdgeKind.text))]

/-- A diagnostic. -/
def Diagnostic.toJson (d : Diagnostic) : Json :=
  .object ([("kind", .string d.kind.text), ("severity", .string d.severity.text)] ++
    (d.path.map fun path => ("path", Json.string path)).toList ++
    (d.module.map fun module => ("module", Json.string module)).toList ++
    [("message", .string d.message)])

/-- A map from names to texts. -/
def Json.ofTexts (m : NameMap String) : Json :=
  .object (m.toList.map fun (name, text) => (name, .string text))

/-- A module in a report. -/
def ModuleReport.toJson (m : ModuleReport) : Json :=
  .object [("source", .string m.source), ("path", .string m.path.text),
    ("dependencies", .strings m.dependencies), ("dependents", .strings m.dependents),
    ("declared_dependencies", .strings m.declaredDependencies),
    ("inferred_references", .strings m.inferredReferences), ("outputs", .strings m.outputs),
    ("variables", .strings m.inputs), ("data_sources", .strings m.dataSources),
    ("remote_states", .strings m.remoteStates), ("resources", .strings m.resources),
    ("invocations", .ofTexts m.invocations), ("files", .strings m.files),
    ("kinds", .strings (m.kinds.map FileKind.text)), ("stub", .bool m.stub),
    ("complexity_score", .nat m.complexityScore)]

/-- A cycle, as the list of its modules with the first one repeated. -/
def Cycle.toJson (c : Cycle) : Json := .strings c.walk

/-- A suggestion. -/
def Suggestion.toJson (s : Suggestion) : Json :=
  .object [("kind", .string s.kind.text), ("modules", .strings s.modules),
    ("message", .string s.message)]

/-- The suggestions for a cycle. -/
def CycleAdvice.toJson (a : CycleAdvice) : Json :=
  .object [("cycle", a.cycle.toJson), ("suggestions", .array (a.suggestions.map Suggestion.toJson))]

/-- The reach of a module. -/
def Reach.toJson (r : Reach) : Json :=
  .object [("affected_modules", .strings r.affected), ("impact_count", .nat r.count)]

/-- A module of high impact. -/
def HighImpact.toJson (h : HighImpact) : Json :=
  .object [("module", .string h.module), ("impact_count", .nat h.count),
    ("affected_modules", .strings h.affected)]

/-- The impact of all modules. -/
def Impact.toJson (i : Impact) : Json :=
  .object [("high_impact_modules", .array (i.high.map HighImpact.toJson)),
    ("module_impact_analysis", .object (i.reach.toList.map fun (id, r) => (id, r.toJson))),
    ("recommendations", .strings i.recommendations)]

/-- Modules by their complexity. -/
def ComplexityBuckets.toJson (b : ComplexityBuckets) : Json :=
  .object [("high_complexity", .strings b.high), ("medium_complexity", .strings b.medium),
    ("low_complexity", .strings b.low)]

namespace Report

/-- A report. -/
def toJson (r : Report) : Json :=
  .object [("scan_root", .string r.scanRoot.text),
    ("generated_at", .stringOrNull (r.generatedAt.map (·.text "Z"))),
    ("modules", .object (r.modules.toList.map fun (id, m) => (id, m.toJson))),
    ("edges", .array (r.edges.map Edge.toJson)),
    ("circular_dependencies", .array (r.cycles.map Cycle.toJson)),
    ("dependency_paths",
      .object (r.paths.toList.map fun (key, paths) => (key, .array (paths.map Json.strings)))),
    ("total_modules", .nat r.totalModules), ("total_dependencies", .nat r.totalDependencies),
    ("total_cycles", .nat r.totalCycles),
    ("refactoring_suggestions", .array (r.advice.map CycleAdvice.toJson)),
    ("impact_analysis", r.impact.toJson), ("complexity_analysis", r.complexity.toJson),
    ("deployment_layers", .array (r.layers.map Json.strings)),
    ("diagnostics", .array (r.diagnostics.map Diagnostic.toJson))]

/-- The text of a report as JSON, over several lines or on one, with a line break at the end. -/
def jsonText (r : Report) (pretty : Bool) : String :=
  (if pretty then r.toJson.pretty else r.toJson.compact) ++ "\n"

end Report

end StackGraph
