import StackGraph.Report
/-!
# Layout of the drawing

Where the modules of a report are drawn: one row per layer, from left to right, each row centred on
the widest one. Modules that stand in no layer make up one more row. All lengths are in the unit of
the drawing.
-/

namespace StackGraph

namespace Layout

/-- The height of a node. -/
def nodeHeight : Nat := 36

/-- The least width of a node. -/
def minNodeWidth : Nat := 96

/-- The distance from a row to the next. -/
def layerGap : Nat := 110

/-- The space between two nodes of a row. -/
def nodeGap : Nat := 40

/-- The space around the drawing. -/
def margin : Nat := 40

/-- The width of a module's node: eight per character and some space, but not too little. -/
def nodeWidth (id : String) : Nat := max (24 + 8 * id.length) minNodeWidth

/-- The upper left corner and the width of a node. -/
structure Placement where
  x : Nat
  y : Nat
  width : Nat
deriving DecidableEq, Repr

/-- The middle of a node, from the left. -/
def Placement.centre (p : Placement) : Nat := p.x + p.width / 2

/-- The rows of a report: its layers, and the modules in none of them. -/
def rows (r : Report) : List (List String) :=
  let missing := r.modules.keys.filter fun id => !r.layers.flatten.contains id
  r.layers ++ (if missing.isEmpty then [] else [missing])

/-- The width of a row. -/
def rowWidth (row : List String) : Nat :=
  (row.map nodeWidth).foldl (· + ·) 0 + nodeGap * (row.length - 1)

/-- The width of the widest row. -/
def widest (rows : List (List String)) : Nat := ((rows.map rowWidth).max?).getD 0

/-- The nodes of a row from a place on. -/
def placeRow (y : Nat) : Nat → List String → List (String × Placement)
  | _, [] => []
  | x, id :: rest => (id, ⟨x, y, nodeWidth id⟩) :: placeRow y (x + nodeWidth id + nodeGap) rest

/-- The nodes of some rows from a height on, centred within a width. -/
def placeRows (width : Nat) : Nat → List (List String) → List (String × Placement)
  | _, [] => []
  | y, row :: rest =>
    placeRow y (margin + (width - rowWidth row) / 2) row ++ placeRows width (y + layerGap) rest

end Layout

/-- A drawing: the places of the nodes, and its size. -/
structure Layout where
  nodes : NameMap Layout.Placement
  width : Nat
  height : Nat

/-- The layout of a report. -/
def Layout.ofReport (r : Report) : Layout :=
  let rows := rows r
  let width := widest rows
  { nodes := Std.ExtTreeMap.ofList (placeRows width margin rows) compare
    width := max width minNodeWidth + margin * 2
    height := margin * 2 +
      (if rows.isEmpty then 0 else (rows.length - 1) * layerGap + nodeHeight) }

end StackGraph
