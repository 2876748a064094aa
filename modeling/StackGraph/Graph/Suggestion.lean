import StackGraph.Graph.Cycle
/-!
# Suggestions

Ways to break a cycle, by a fixed set of rules: move what the members exchange into a module that
all of them depend on, replace an edge by an indirect lookup, or restructure the modules at the edge
that closes the cycle.
-/

namespace StackGraph

/-- The rule that a suggestion comes from. -/
inductive SuggestionKind where
  | extractCommonDependency
  | indirectLookup
  | restructure
deriving DecidableEq, Repr

/-- The name of a rule. -/
def SuggestionKind.text : SuggestionKind → String
  | extractCommonDependency => "extract_common_dependency"
  | indirectLookup => "indirect_lookup"
  | restructure => "restructure"

/-- A way to break a cycle. -/
structure Suggestion where
  kind : SuggestionKind
  /-- The modules it is about. -/
  modules : List String
  message : String
deriving DecidableEq, Repr

/-- The suggestions for one cycle. -/
structure CycleAdvice where
  cycle : Cycle
  suggestions : List Suggestion
deriving DecidableEq, Repr

namespace Graph

/-- The modules outside the cycle that every member depends on. -/
def sharedUpstream (g : Graph) (c : Cycle) : List String :=
  match c.members with
  | [] => []
  | first :: rest =>
    (g.upstream first).filter fun u =>
      (rest.all fun m => (g.upstream m).contains u) && !c.members.contains u

/-- The names by which a module knows another one: the name of its directory, and those of the
declarations whose path leads to it. -/
def knownNames (consumer : Module) (id : String) : List String :=
  ModuleId.basename id :: (consumer.declarations.filter (·.target = some id)).filterMap (·.name)

/-- The outputs that the target of an edge reads from its source. -/
def outputsRead (g : Graph) (source target : String) : List String :=
  match g.modules[target]? with
  | none => []
  | some consumer =>
    (consumer.references.toList.filter fun r => (knownNames consumer source).contains r.name).map
      fun r => source ++ "." ++ r.output

/-- The outputs that are read along the edges of a cycle, in order. -/
def exchangedOutputs (g : Graph) (c : Cycle) : List String :=
  (Std.ExtTreeSet.ofList (c.edges.flatMap fun (source, target) => g.outputsRead source target)
    compare).toList

/-- A common dependency for what the members exchange. -/
def extractCommonDependency (g : Graph) (c : Cycle) : Suggestion :=
  let listed := ", ".intercalate c.members
  let shared := g.sharedUpstream c
  let exchanged := g.exchangedOutputs c
  if shared.isEmpty then
    ⟨.extractCommonDependency, c.members,
      if exchanged.isEmpty then
        "Extract the configuration that " ++ listed ++
          " exchange into a new module they all depend on"
      else
        "Extract the outputs " ++ ", ".intercalate exchanged ++ " into a new module that " ++
          listed ++ " all depend on"⟩
  else
    ⟨.extractCommonDependency, shared,
      listed ++ " already share the upstream dependency " ++ ", ".intercalate shared ++
        "; move the values they exchange into it, or into a new module beside it, so no member " ++
          "needs another member's outputs"⟩

/-- The edge of a cycle to replace: an inferred one if there is any, of those the smallest. -/
def weakestEdge? (g : Graph) (c : Cycle) : Option Edge :=
  let rank (e : Edge) : Nat := match e.kind with
    | .inferred => 0
    | .explicit => 1
  (sortBy (fun a b => (compare (rank a) (rank b)).then
      (comparePair (a.source, a.target) (b.source, b.target)))
    (c.edges.filterMap fun (source, target) => g.edge? source target)).head?

/-- An indirect lookup in the place of an edge. -/
def indirectLookup (e : Edge) : Suggestion :=
  let known := match e.kind with
    | .explicit => "declared"
    | .inferred => "inferred"
  ⟨.indirectLookup, [e.source, e.target],
    "Replace the " ++ known ++ " edge " ++ e.source ++ " -> " ++ e.target ++
      " with an indirect lookup: let " ++ e.target ++ " read the value from remote state or a " ++
        "published parameter instead of a live reference to " ++ e.source⟩

end Graph

namespace Cycle

/-- A new structure for the modules of a cycle of two, or for those at the closing edge. -/
def restructure (c : Cycle) : Suggestion :=
  match c.members with
  | [a, b] =>
    ⟨.restructure, [a, b],
      a ++ " and " ++ b ++
        " depend on each other; restructure them so only one needs to know about the other"⟩
  | _ =>
    let (source, target) := c.closingEdge?.getD ("", "")
    ⟨.restructure, [source, target],
      "The edge " ++ source ++ " -> " ++ target ++ " closes the loop; restructure " ++ target ++
        " so it no longer depends on " ++ source⟩

end Cycle

namespace Graph

/-- The suggestions for a cycle. -/
def suggest (g : Graph) (c : Cycle) : List Suggestion :=
  g.extractCommonDependency c :: ((g.weakestEdge? c).map indirectLookup).toList ++ [c.restructure]

/-- The suggestions for several cycles. -/
def advice (g : Graph) (cycles : List Cycle) : List CycleAdvice :=
  cycles.map fun c => ⟨c, g.suggest c⟩

end Graph

end StackGraph
