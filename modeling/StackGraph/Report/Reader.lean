import StackGraph.Json.Reader
import StackGraph.Report.Json
import StackGraph.Text.Number
/-!
# Reading reports

The report that a JSON text denotes. The fields of an object may stand in any order, and further
members are left aside, but no field may be missing or stand twice. A field that may be absent is so
too if it is null. Counts fit in a word.
-/

namespace StackGraph

namespace Json

variable {α : Type}

/-- The text, if the value is one. -/
def text? : Json → Option String
  | string text => some text
  | _ => none

/-- The truth value, if the value is one. -/
def bool? : Json → Option Bool
  | bool value => some value
  | _ => none

/-- The number, if the value is one that fits in a word. -/
def count? : Json → Option Nat
  | nat value => if value < Text.wordCount then some value else none
  | _ => none

/-- The items of an array, each as `item?` reads it. -/
def list? (item? : Json → Option α) : Json → Option (List α)
  | array items => items.mapM item?
  | _ => none

/-- An array of texts. -/
def texts? : Json → Option (List String) := list? text?

/-- The members of an object, each as `value?` reads it; of equal names the last counts. -/
def map? (value? : Json → Option α) : Json → Option (NameMap α)
  | object members =>
    (members.mapM fun m => (value? m.2).map fun x => (m.1, x)).map fun entries =>
      Std.ExtTreeMap.ofList entries compare
  | _ => none

/-- The value, unless it is null. -/
def optional? (value? : Json → Option α) : Json → Option (Option α)
  | null => some none
  | v => (value? v).map some

/-- The one of some things that has the text as its name. -/
def oneOf? (all : List α) (name : α → String) (v : Json) : Option α :=
  v.text?.bind fun text => all.find? fun x => name x == text

/-- The members of an object in which none of the given fields stands twice. -/
def fields? (names : List String) : Json → Option (List (String × Json))
  | object members =>
    if ((members.map Prod.fst).filter (names.contains ·)).Nodup then some members else none
  | _ => none

/-- The field of a name. -/
def field? (fields : List (String × Json)) (name : String) (value? : Json → Option α) : Option α :=
  (fields.lookup name).bind value?

/-- The field of a name that may be missing. -/
def optionalField? (fields : List (String × Json)) (name : String) (value? : Json → Option α) :
    Option (Option α) :=
  match fields.lookup name with
  | none => some none
  | some v => optional? value? v

end Json

/-- The kind of evidence of a name. -/
def EdgeKind.ofJson? : Json → Option EdgeKind := Json.oneOf? [explicit, inferred] text

/-- The kind of configuration file of a name. -/
def FileKind.ofJson? : Json → Option FileKind := Json.oneOf? [orchestration, moduleDefinition] text

/-- The rule of a name. -/
def SuggestionKind.ofJson? : Json → Option SuggestionKind :=
  Json.oneOf? [extractCommonDependency, indirectLookup, restructure] text

/-- The severity of a name. -/
def Severity.ofJson? : Json → Option Severity := Json.oneOf? [warning, error, critical] text

/-- The kind of problem of a name. -/
def DiagnosticKind.ofJson? : Json → Option DiagnosticKind :=
  Json.oneOf? [filesystem, syntaxError, grammar, resolution, selfReference] text

/-- A point in time. -/
def Timestamp.ofJson? (v : Json) : Option Timestamp := v.text?.bind read?

/-- A path. -/
def Path.ofJson? (v : Json) : Option Path := v.text?.map Path.mk

/-- An edge. -/
def Edge.ofJson? (v : Json) : Option Edge := do
  let fields ← v.fields? ["from", "to", "kind", "evidence"]
  return {
    source := ← Json.field? fields "from" Json.text?
    target := ← Json.field? fields "to" Json.text?
    kind := ← Json.field? fields "kind" EdgeKind.ofJson?
    evidence := Std.ExtTreeSet.ofList
      (← Json.field? fields "evidence" (Json.list? EdgeKind.ofJson?)) _ }

/-- A diagnostic. -/
def Diagnostic.ofJson? (v : Json) : Option Diagnostic := do
  let fields ← v.fields? ["kind", "severity", "path", "module", "message"]
  return {
    kind := ← Json.field? fields "kind" DiagnosticKind.ofJson?
    severity := ← Json.field? fields "severity" Severity.ofJson?
    path := ← Json.optionalField? fields "path" Json.text?
    module := ← Json.optionalField? fields "module" Json.text?
    message := ← Json.field? fields "message" Json.text? }

/-- A module in a report. -/
def ModuleReport.ofJson? (v : Json) : Option ModuleReport := do
  let fields ← v.fields? ["source", "path", "dependencies", "dependents", "declared_dependencies",
    "inferred_references", "outputs", "variables", "data_sources", "remote_states", "resources",
    "invocations", "files", "kinds", "stub", "complexity_score"]
  return {
    source := ← Json.field? fields "source" Json.text?
    path := ← Json.field? fields "path" Path.ofJson?
    dependencies := ← Json.field? fields "dependencies" Json.texts?
    dependents := ← Json.field? fields "dependents" Json.texts?
    declaredDependencies := ← Json.field? fields "declared_dependencies" Json.texts?
    inferredReferences := ← Json.field? fields "inferred_references" Json.texts?
    outputs := ← Json.field? fields "outputs" Json.texts?
    inputs := ← Json.field? fields "variables" Json.texts?
    dataSources := ← Json.field? fields "data_sources" Json.texts?
    remoteStates := ← Json.field? fields "remote_states" Json.texts?
    resources := ← Json.field? fields "resources" Json.texts?
    invocations := ← Json.field? fields "invocations" (Json.map? Json.text?)
    files := ← Json.field? fields "files" Json.texts?
    kinds := ← Json.field? fields "kinds" (Json.list? FileKind.ofJson?)
    stub := ← Json.field? fields "stub" Json.bool?
    complexityScore := ← Json.field? fields "complexity_score" Json.count? }

/-- A cycle. -/
def Cycle.ofJson? (v : Json) : Option Cycle := v.texts?.map Cycle.mk

/-- A suggestion. -/
def Suggestion.ofJson? (v : Json) : Option Suggestion := do
  let fields ← v.fields? ["kind", "modules", "message"]
  return {
    kind := ← Json.field? fields "kind" SuggestionKind.ofJson?
    modules := ← Json.field? fields "modules" Json.texts?
    message := ← Json.field? fields "message" Json.text? }

/-- The suggestions for a cycle. -/
def CycleAdvice.ofJson? (v : Json) : Option CycleAdvice := do
  let fields ← v.fields? ["cycle", "suggestions"]
  return {
    cycle := ← Json.field? fields "cycle" Cycle.ofJson?
    suggestions := ← Json.field? fields "suggestions" (Json.list? Suggestion.ofJson?) }

/-- The reach of a module. -/
def Reach.ofJson? (v : Json) : Option Reach := do
  let fields ← v.fields? ["affected_modules", "impact_count"]
  return {
    affected := ← Json.field? fields "affected_modules" Json.texts?
    count := ← Json.field? fields "impact_count" Json.count? }

/-- A module of high impact. -/
def HighImpact.ofJson? (v : Json) : Option HighImpact := do
  let fields ← v.fields? ["module", "impact_count", "affected_modules"]
  return {
    module := ← Json.field? fields "module" Json.text?
    count := ← Json.field? fields "impact_count" Json.count?
    affected := ← Json.field? fields "affected_modules" Json.texts? }

/-- The impact of all modules. -/
def Impact.ofJson? (v : Json) : Option Impact := do
  let fields ← v.fields? ["high_impact_modules", "module_impact_analysis", "recommendations"]
  return {
    high := ← Json.field? fields "high_impact_modules" (Json.list? HighImpact.ofJson?)
    reach := ← Json.field? fields "module_impact_analysis" (Json.map? Reach.ofJson?)
    recommendations := ← Json.field? fields "recommendations" Json.texts? }

/-- Modules by their complexity. -/
def ComplexityBuckets.ofJson? (v : Json) : Option ComplexityBuckets := do
  let fields ← v.fields? ["high_complexity", "medium_complexity", "low_complexity"]
  return {
    high := ← Json.field? fields "high_complexity" Json.texts?
    medium := ← Json.field? fields "medium_complexity" Json.texts?
    low := ← Json.field? fields "low_complexity" Json.texts? }

namespace Report

/-- A report. -/
def ofJson? (v : Json) : Option Report := do
  let fields ← v.fields? ["scan_root", "generated_at", "modules", "edges", "circular_dependencies",
    "dependency_paths", "total_modules", "total_dependencies", "total_cycles",
    "refactoring_suggestions", "impact_analysis", "complexity_analysis", "deployment_layers",
    "diagnostics"]
  return {
    scanRoot := ← Json.field? fields "scan_root" Path.ofJson?
    generatedAt := ← Json.optionalField? fields "generated_at" Timestamp.ofJson?
    modules := ← Json.field? fields "modules" (Json.map? ModuleReport.ofJson?)
    edges := ← Json.field? fields "edges" (Json.list? Edge.ofJson?)
    cycles := ← Json.field? fields "circular_dependencies" (Json.list? Cycle.ofJson?)
    paths := ← Json.field? fields "dependency_paths" (Json.map? (Json.list? Json.texts?))
    totalModules := ← Json.field? fields "total_modules" Json.count?
    totalDependencies := ← Json.field? fields "total_dependencies" Json.count?
    totalCycles := ← Json.field? fields "total_cycles" Json.count?
    advice := ← Json.field? fields "refactoring_suggestions" (Json.list? CycleAdvice.ofJson?)
    impact := ← Json.field? fields "impact_analysis" Impact.ofJson?
    complexity := ← Json.field? fields "complexity_analysis" ComplexityBuckets.ofJson?
    layers := ← Json.field? fields "deployment_layers" (Json.list? Json.texts?)
    diagnostics := ← Json.field? fields "diagnostics" (Json.list? Diagnostic.ofJson?) }

/-- The report that a text denotes. -/
def read? (text : String) : Option Report := (Json.read? text).bind ofJson?

end Report

end StackGraph
