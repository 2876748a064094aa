import StackGraph.Graph
/-!
# Strongly connected components

Two modules are in one component if each is deployed after the other. A cycle never leaves the
component of its modules, so a search for cycles can look at one component at a time, and not at all
at a component of a single module.
-/

namespace StackGraph

namespace Graph

/-- For every module, the modules that are deployed after it. -/
def reachTable (g : Graph) : NameMap NameSet := g.modules.map fun id _ => g.downstream id

/-- Whether two modules are the same or each is deployed after the other, by a table of what is
deployed after every module. -/
def areMutual (reach : NameMap NameSet) (a b : String) : Bool :=
  a == b || (reach[a]?.getD ∅).contains b && (reach[b]?.getD ∅).contains a

/-- The components of the graph, each with its modules in order. A component is listed at the place
of its first module. -/
def components (g : Graph) : List (List String) :=
  let reach := g.reachTable
  g.ids.filterMap fun id =>
    let part := g.ids.filter (areMutual reach id)
    if part.head? = some id then some part else none

end Graph

end StackGraph
