import StackGraph.Graph.Component
/-!
# Cycles

Simple cycles of the graph, each written as the list of its modules from the smallest id on, with
that id repeated at the end.

`Graph.cycles` looks at one component of the graph after the other. In each it finds the cycles by a
depth-first search from every module that visits only modules with greater ids, so it meets each
cycle once, at its smallest module.
-/

namespace StackGraph

/-- A cycle as a closed walk: its first module is also its last. -/
structure Cycle where
  /-- The modules in the order of the edges. -/
  walk : List String
deriving DecidableEq, Repr

namespace Cycle

/-- The position of the smallest of some names, the first one of equals. -/
def leastIndex : List String → Nat
  | [] => 0
  | m :: ms => go m 0 1 ms
where
  /-- Compares the smallest name so far, found at `best`, with the names from position `i` on. -/
  go (least : String) (best i : Nat) : List String → Nat
    | [] => best
    | m :: ms => if m < least then go m i (i + 1) ms else go least best (i + 1) ms

/-- The cycle through some modules in the order of the edges, wherever the list starts. -/
def ofMembers (members : List String) : Cycle :=
  let i := leastIndex members
  let turned := members.drop i ++ members.take i
  ⟨turned ++ turned.take 1⟩

/-- The modules on the cycle, each once. -/
def members (c : Cycle) : List String := c.walk.dropLast

/-- The number of modules on the cycle. -/
def length (c : Cycle) : Nat := c.members.length

/-- The edges of the cycle, the one that returns to the start last. -/
def edges (c : Cycle) : List (String × String) := c.walk.zip c.walk.tail

/-- The edge that returns to the start. -/
def closingEdge? (c : Cycle) : Option (String × String) := c.edges.getLast?

/-- Whether an edge lies on the cycle. -/
def containsEdge (c : Cycle) (source target : String) : Bool := c.edges.contains (source, target)

/-- The cycle on one line. -/
def text (c : Cycle) : String := " -> ".intercalate c.walk

/-- Shorter cycles come first, cycles of one length in lexicographic order. -/
def compare : Cycle → Cycle → Ordering :=
  compareLex (compareOn length) fun a b => compareList Ord.compare a.walk b.walk

instance : Std.TransCmp fun a b : Cycle => compareList Ord.compare a.walk b.walk where
  eq_swap := Std.OrientedCmp.eq_swap
  isLE_trans := Std.TransCmp.isLE_trans

instance : Std.TransCmp compare :=
  inferInstanceAs (Std.TransCmp (compareLex (compareOn length)
    fun a b : Cycle => compareList Ord.compare a.walk b.walk))

instance : Std.LawfulEqCmp compare where
  eq_of_compare {a b} h := by
    simp only [compare, compareLex, Ordering.then_eq_eq] at h
    cases a
    cases b
    exact congrArg Cycle.mk (Std.LawfulEqCmp.eq_of_compare h.2)
  compare_self {a} := by
    simp [compare, compareLex, compareOn, Std.ReflCmp.compare_self]

end Cycle

namespace Graph

/-- The cycles that continue a path, given last module first, and return to `start` without leaving
the given members. The path grows by one module in each of the remaining steps. -/
def cyclesAlong (g : Graph) (members : List String) (start : String) :
    Nat → String → List String → List Cycle
  | 0, _, _ => []
  | steps + 1, current, earlier =>
    ((g.dependents current).filter (· ∈ members)).flatMap fun next =>
      if next = start then [Cycle.ofMembers (current :: earlier).reverse]
      else if start < next ∧ next ∉ current :: earlier then
        g.cyclesAlong members start steps next (current :: earlier)
      else []

/-- The cycles among some members; a single module has none, since it has no edge to itself. -/
def cyclesAmong (g : Graph) (members : List String) : List Cycle :=
  if members.length < 2 then []
  else members.flatMap fun start => g.cyclesAlong members start members.length start []

/-- The cycles inside some components, each once and shorter ones first. -/
def cyclesWithin (g : Graph) (components : List (List String)) : List Cycle :=
  (Std.ExtTreeSet.ofList (components.flatMap g.cyclesAmong) Cycle.compare).toList

/-- Every simple cycle of the graph, shorter ones first. -/
def cycles (g : Graph) : List Cycle := g.cyclesWithin g.components

end Graph

end StackGraph
