import StackGraph.Report
import StackGraph.Text.Escaped
/-!
# Mermaid export

A report as a Mermaid flowchart. Modules are nodes `n0`, `n1` and so on in the order of their ids;
an edge is drawn if both its ends are modules of the report. Links on a cycle are styled by their
number, modules by classes.
-/

namespace StackGraph.Mermaid

/-- The name of the node with a number. -/
def nodeName (index : Nat) : String := "n" ++ toString index

/-- The line of a module. -/
def nodeLine (index : Nat) (id : String) : String :=
  "    " ++ nodeName index ++ "[\"" ++ Text.mermaidEscape id ++ "\"]"

/-- The arrow of a kind of edge. -/
def arrow : EdgeKind → String
  | .explicit => "-->"
  | .inferred => "-.->"

/-- A link between two numbered nodes. -/
structure Link where
  source : Nat
  target : Nat
  kind : EdgeKind
  onCycle : Bool
deriving DecidableEq, Repr

/-- The line of a link. -/
def Link.line (l : Link) : String :=
  "    " ++ nodeName l.source ++ " " ++ arrow l.kind ++ " " ++ nodeName l.target

/-- The links that are drawn, in order. -/
def links (r : Report) : List Link :=
  let ids := r.modules.keys
  let cycleEdges := r.cycleEdges
  r.edges.filterMap fun e => do
    let source ← ids.idxOf? e.source
    let target ← ids.idxOf? e.target
    return ⟨source, target, e.kind, cycleEdges.contains (e.source, e.target)⟩

/-- The numbers of the links on a cycle. -/
def highlighted (links : List Link) : List Nat :=
  (links.zipIdx.filter fun l => l.1.onCycle).map Prod.snd

/-- The style of the link with a number. -/
def linkStyle (index : Nat) : String :=
  "    linkStyle " ++ toString index ++ " stroke:#d32f2f,stroke-width:3px"

/-- The lines that give nodes a class; none if there are no such nodes. -/
def classLines (name style : String) (indices : List Nat) : List String :=
  if indices.isEmpty then []
  else
    ["    classDef " ++ name ++ " " ++ style,
      "    class " ++ ",".intercalate (indices.map nodeName) ++ " " ++ name]

/-- The numbers of the modules without readable files. -/
def stubs (r : Report) : List Nat :=
  (r.modules.values.zipIdx.filter fun m => m.1.stub).map Prod.snd

/-- The numbers of the modules on a cycle. -/
def onCycle (r : Report) : List Nat :=
  let members := r.cycleMembers
  (r.modules.keys.zipIdx.filter fun id => members.contains id.1).map Prod.snd

/-- The lines of a report. -/
def lines (r : Report) : List String :=
  let links := links r
  ["graph TD"] ++ r.cycles.map (fun c => "    %% cycle: " ++ c.text) ++
    r.modules.keys.zipIdx.map (fun (id, index) => nodeLine index id) ++ links.map Link.line ++
    (highlighted links).map linkStyle ++
    classLines "stub" "stroke-dasharray: 5 5,color:#666" (stubs r) ++
    classLines "cycle" "stroke:#d32f2f,stroke-width:2px" (onCycle r)

/-- The Mermaid text of a report. -/
def render (r : Report) : String := Text.unlines (lines r)

end StackGraph.Mermaid
