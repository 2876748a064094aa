import StackGraph.Export.Layout
import StackGraph.Export.Page
import StackGraph.Report.Json
import StackGraph.Text.Escaped
/-!
# HTML export

A report as one page that needs nothing else: a drawing of the graph, a list of its cycles, and the
data of its modules for the page's script.

A page is a sequence of parts. Fixed markup is written as it is, every text of the report is
escaped, numbers and the time hold nothing to escape, and the data of the graph is JSON in which no
`</` remains, so that it cannot end the element that holds it.
-/

namespace StackGraph.Html

/-- A part of a page. -/
inductive Part where
  /-- Markup that does not depend on any text of the report. -/
  | markup (text : String)
  /-- A text of the report. -/
  | text (text : String)
  /-- A number. -/
  | number (value : Int)
  /-- A point in time. -/
  | time (value : Timestamp)
  /-- The data of the graph. -/
  | data (text : String)

/-- A part as it is written. -/
def Part.render : Part → String
  | markup s => s
  | text s => Text.htmlEscape s
  | number value => toString value
  | time value => value.text "+00:00"
  | data s => s

/-- Parts written one after the other. -/
def renderAll (parts : List Part) : String := String.join (parts.map Part.render)

/-- Text in which a slash behind a `<` is escaped. -/
def protectEnd : List Char → List Char
  | '<' :: '/' :: rest => '<' :: '\\' :: '/' :: protectEnd rest
  | c :: rest => c :: protectEnd rest
  | [] => []

/-- The data of a module that the script uses, its members in order. -/
def moduleData (m : ModuleReport) : Json :=
  .object [("complexity_score", .nat m.complexityScore), ("dependencies", .strings m.dependencies),
    ("dependents", .strings m.dependents), ("outputs", .strings m.outputs),
    ("source", .string m.source), ("stub", .bool m.stub)]

/-- The data of the graph that the script uses, its members in order. -/
def graphData (r : Report) (layout : Layout) : Json :=
  .object [("bounds", .object [("height", .nat layout.height), ("width", .nat layout.width)]),
    ("cycles", .array (r.cycles.map Cycle.toJson)),
    ("modules", .object (r.modules.toList.map fun (id, m) => (id, moduleData m)))]

/-- The data of the graph as it stands in the page. -/
def payload (r : Report) (layout : Layout) : String :=
  String.ofList (protectEnd (graphData r layout).compact.toList)

/-! ### The drawing -/

/-- The definition of an arrow head. -/
def marker (name colour : String) : String :=
  "<marker id=\"" ++ name ++ "\" viewBox=\"0 0 10 10\" refX=\"10\" refY=\"5\" markerWidth=\"8\" " ++
    "markerHeight=\"8\" orient=\"auto-start-reverse\"><path d=\"M 0 0 L 10 5 L 0 10 z\" fill=\"" ++
    colour ++ "\"/></marker>"

/-- An edge between two placed nodes, as a curve from the bottom of one to the top of the other. -/
def edgeParts (e : Edge) (source target : Layout.Placement) (onCycle : Bool) : List Part :=
  let classes := ["edge"] ++ (if e.kind = .inferred then ["inferred"] else []) ++
    (if onCycle then ["cycle"] else [])
  let x₁ : Int := source.centre
  let y₁ : Int := source.y + Layout.nodeHeight
  let x₂ : Int := target.centre
  let y₂ : Int := target.y
  let bend : Int := Layout.layerGap / 2
  [.markup ("<path class=\"" ++ " ".intercalate classes ++ "\" data-from=\""), .text e.source,
    .markup "\" data-to=\"", .text e.target, .markup "\" d=\"M ", .number x₁, .markup " ",
    .number y₁, .markup " C ", .number x₁, .markup " ", .number (y₁ + bend), .markup ", ",
    .number x₂, .markup " ", .number (y₂ - bend), .markup ", ", .number x₂, .markup " ", .number y₂,
    .markup ("\" marker-end=\"url(#" ++ (if onCycle then "arrow-cycle" else "arrow") ++ ")\"/>\n")]

/-- A placed node. -/
def nodeParts (id : String) (m : ModuleReport) (p : Layout.Placement) (onCycle : Bool) :
    List Part :=
  let classes := ["node"] ++ (if m.stub then ["stub"] else []) ++
    (if m.dependencies.isEmpty && m.dependents.isEmpty then ["isolated"] else []) ++
    (if onCycle then ["cycle"] else [])
  [.markup ("<g class=\"" ++ " ".intercalate classes ++ "\" data-id=\""), .text id,
    .markup "\"><title>", .text id, .markup "</title><rect x=\"", .number p.x, .markup "\" y=\"",
    .number p.y, .markup "\" width=\"", .number p.width, .markup "\" height=\"",
    .number Layout.nodeHeight, .markup "\" rx=\"6\"/><text x=\"", .number p.centre,
    .markup "\" y=\"", .number ↑(p.y + Layout.nodeHeight / 2 + 5), .markup "\">", .text id,
    .markup "</text></g>\n"]

/-- The edges whose ends are placed. -/
def drawnEdges (r : Report) (layout : Layout) : List (Edge × Layout.Placement × Layout.Placement) :=
  r.edges.filterMap fun e => do
    let source ← layout.nodes[e.source]?
    let target ← layout.nodes[e.target]?
    return (e, source, target)

/-- The placed nodes that are modules of the report. -/
def drawnNodes (r : Report) (layout : Layout) :
    List (String × ModuleReport × Layout.Placement) :=
  layout.nodes.toList.filterMap fun (id, p) => (r.modules[id]?).map fun m => (id, m, p)

/-- The drawing. -/
def drawing (r : Report) (layout : Layout) : List Part :=
  let cycleEdges := r.cycleEdges
  let cycleMembers := r.cycleMembers
  [.markup "<svg id=\"graph\" xmlns=\"http://www.w3.org/2000/svg\" viewBox=\"0 0 ",
    .number layout.width, .markup " ", .number layout.height, .markup "\">\n",
    .markup ("<defs>" ++ marker "arrow" "#607d8b" ++ marker "arrow-cycle" "#d32f2f" ++
      "</defs>\n"), .markup "<g id=\"edges\">\n"] ++
    (drawnEdges r layout).flatMap (fun (e, source, target) =>
      edgeParts e source target (cycleEdges.contains (e.source, e.target))) ++
    [.markup "</g>\n<g id=\"nodes\">\n"] ++
    (drawnNodes r layout).flatMap (fun (id, m, p) =>
      nodeParts id m p (cycleMembers.contains id)) ++
    [.markup "</g>\n</svg>\n"]

/-! ### The page -/

/-- The title of the page. -/
def title (r : Report) : List Part := [.text ("tfdeps: " ++ r.scanRoot.text)]

/-- The counts at the top of the page. -/
def stats (r : Report) : List Part :=
  [.markup "<span>", .number r.totalModules, .markup " modules</span><span>",
    .number r.totalDependencies, .markup " dependencies</span>",
    .markup ("<span class=\"" ++ (if r.hasCycles then "bad" else "ok") ++ "\">"),
    .number r.totalCycles, .markup " cycles</span><span>", .number r.diagnostics.length,
    .markup " diagnostics</span>"] ++
    match r.generatedAt with
    | none => []
    | some t => [.markup "<span>", .time t, .markup "</span>"]

/-- The list of cycles; nothing if there are none. -/
def cycleList (r : Report) : List Part :=
  if r.hasCycles then
    [.markup "<h2>Circular dependencies</h2>\n<ol>\n"] ++
      r.cycles.flatMap (fun c => [.markup "<li>", .text c.text, .markup "</li>\n"]) ++
      [.markup "</ol>\n"]
  else []

/-- The parts of the page up to the data of the graph. -/
def beforeData (r : Report) (layout : Layout) : List Part :=
  [.markup "<!DOCTYPE html>\n<html lang=\"en\">\n<head>\n<meta charset=\"utf-8\">\n<title>"] ++
    title r ++
    [.markup ("</title>\n<style>\n" ++ Text.unlines Page.style ++
      "</style>\n</head>\n<body>\n<header>\n<h1>")] ++
    title r ++ [.markup "</h1>\n<div class=\"stats\">"] ++ stats r ++
    [.markup "</div>\n<input id=\"search\" type=\"search\" placeholder=\"Search modules\">\n",
      .markup "<button id=\"fit\" type=\"button\">Fit</button>\n</header>\n",
      .markup "<main>\n<div id=\"canvas\">\n"] ++
    drawing r layout ++
    [.markup "</div>\n<aside>\n<div id=\"details\"><p>Click a module for details.</p></div>\n"] ++
    cycleList r ++
    [.markup "</aside>\n</main>\n<script type=\"application/json\" id=\"graph-data\">"]

/-- The parts of the page behind the data of the graph. -/
def afterData : List Part :=
  [.markup ("</script>\n<script>\n" ++ Text.unlines Page.script ++ "</script>\n</body>\n</html>\n")]

/-- The parts of the page. -/
def page (r : Report) : List Part :=
  let layout := Layout.ofReport r
  beforeData r layout ++ .data (payload r layout) :: afterData

/-- The HTML text of a report. -/
def render (r : Report) : String := renderAll (page r)

end StackGraph.Html
