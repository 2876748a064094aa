import StackGraph.Report
import StackGraph.Text.Escaped
/-!
# DOT export

A report as a directed graph in the DOT language: a comment per cycle, a statement per module and a
statement per edge, each on a line of its own. Edges on a cycle are red, inferred edges dashed,
modules without readable files dashed and modules without edges filled.
-/

namespace StackGraph.Dot

/-- The lines before the first statement. -/
def header : List String :=
  ["digraph dependencies \x7b", "    rankdir=TB;",
    "    node [shape=box, style=rounded, fontname=\"Helvetica\"];", "    edge [color=gray30];"]

/-- The name of a module's node. -/
def nodeName (id : String) : String := "\"" ++ Text.dotEscape id ++ "\""

/-- A comment that names the modules of a cycle. -/
def cycleComment (c : Cycle) : String := "    // cycle: " ++ c.text

/-- The attributes of a module's node. -/
def nodeAttributes (id : String) (m : ModuleReport) (onCycle : Bool) : List String :=
  ["label=\"" ++ Text.dotEscape id ++ (if m.stub then "\\n(stub)" else "") ++ "\""] ++
    (if m.stub then ["style=\"rounded,dashed\"", "fontcolor=gray40"]
    else if m.dependencies.isEmpty && m.dependents.isEmpty then
      ["style=\"rounded,filled\"", "fillcolor=gray90"]
    else []) ++
    (if onCycle then ["color=red"] else [])

/-- The statement of a module. -/
def nodeStatement (id : String) (m : ModuleReport) (onCycle : Bool) : String :=
  "    " ++ nodeName id ++ " [" ++ ", ".intercalate (nodeAttributes id m onCycle) ++ "];"

/-- The attributes of an edge. -/
def edgeAttributes (kind : EdgeKind) (onCycle : Bool) : List String :=
  (if kind = .inferred then ["style=dashed"] else []) ++
    (if onCycle then ["color=red", "penwidth=2"] else [])

/-- The statement of an edge. -/
def edgeStatement (e : Edge) (onCycle : Bool) : String :=
  let attributes := edgeAttributes e.kind onCycle
  "    " ++ nodeName e.source ++ " -> " ++ nodeName e.target ++
    (if attributes.isEmpty then "" else " [" ++ ", ".intercalate attributes ++ "]") ++ ";"

/-- The lines of a report. -/
def lines (r : Report) : List String :=
  let cycleEdges := r.cycleEdges
  let cycleMembers := r.cycleMembers
  header ++ r.cycles.map cycleComment ++ [""] ++
    r.modules.toList.map (fun (id, m) => nodeStatement id m (cycleMembers.contains id)) ++
    (if r.edges.isEmpty then [] else [""]) ++
    r.edges.map (fun e => edgeStatement e (cycleEdges.contains (e.source, e.target))) ++ ["\x7d"]

/-- The DOT text of a report. -/
def render (r : Report) : String := Text.unlines (lines r)

end StackGraph.Dot
