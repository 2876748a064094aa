import StackGraph.Graph
/-!
# Dependency paths

Every simple path of the graph with at least one edge, under a key made of its first and its last
module. Paths under one key are in the order of their length, then lexicographic.
-/

namespace StackGraph

namespace Graph

/-- The simple paths that continue a path, given last module first. The path grows by one module in
each of the remaining steps. -/
def pathsAlong (g : Graph) : Nat → String → List String → List (List String)
  | 0, _, _ => []
  | steps + 1, current, earlier =>
    (g.dependents current).flatMap fun next =>
      if next ∈ current :: earlier then []
      else (next :: current :: earlier).reverse :: g.pathsAlong steps next (current :: earlier)

/-- Every simple path that leaves a module. -/
def pathsFrom (g : Graph) (start : String) : List (List String) :=
  g.pathsAlong g.modules.size start []

/-- The key of the paths between two modules. -/
def pathKey (source target : String) : String := source ++ "->" ++ target

/-- The map with one more path under its key. -/
def recordPath (paths : NameMap (List (List String))) (path : List String) :
    NameMap (List (List String)) :=
  let key := pathKey (path.head?.getD "") (path.getLast?.getD "")
  paths.insert key (paths[key]?.getD [] ++ [path])

/-- Every simple path of the graph, by its ends. -/
def paths (g : Graph) : NameMap (List (List String)) :=
  let found := (g.ids.flatMap g.pathsFrom).foldl recordPath ∅
  found.map fun _ paths => sortBy compareByLength paths

end Graph

end StackGraph
