import StackGraph.Graph
/-!
# Impact and complexity

How far a change of each module reaches, and how complex each module is. A module that reaches more
than three others has a high impact.
-/

namespace StackGraph

/-- The modules that a change reaches. -/
structure Reach where
  affected : List String
  count : Nat
deriving DecidableEq, Repr

/-- A module of high impact. -/
structure HighImpact where
  module : String
  count : Nat
  affected : List String
deriving DecidableEq, Repr

/-- The reach of every module, and those of high impact among them. -/
structure Impact where
  high : List HighImpact
  reach : NameMap Reach
  recommendations : List String

/-- A module that reaches more than this many others has a high impact. -/
def highImpactThreshold : Nat := 3

/-- What to do about a module of high impact. -/
def HighImpact.recommendation (h : HighImpact) : String :=
  "Module '" ++ h.module ++ "' has high impact (" ++ toString h.count ++
    " affected modules). Consider breaking it into smaller modules or publishing its outputs " ++
      "through data sources to reduce coupling."

/-- Modules by their complexity. -/
structure ComplexityBuckets where
  high : List String
  medium : List String
  low : List String
deriving DecidableEq, Repr

/-- Modules with their scores, sorted into three buckets: above ten, above five, and the rest. -/
def ComplexityBuckets.ofScores (scores : List (String × Nat)) : ComplexityBuckets where
  high := (scores.filter fun s => 10 < s.2).map Prod.fst
  medium := (scores.filter fun s => 5 < s.2 && s.2 ≤ 10).map Prod.fst
  low := (scores.filter fun s => s.2 ≤ 5).map Prod.fst

namespace Graph

/-- The reach of a module. -/
def reachOf (g : Graph) (id : String) : Reach :=
  let affected := (g.downstream id).toList
  ⟨affected, affected.length⟩

/-- The impact of all modules. -/
def impact (g : Graph) : Impact :=
  let all := g.ids.map fun id => (id, g.reachOf id)
  let high := (all.filter fun (_, r) => highImpactThreshold < r.count).map fun (id, r) =>
    { module := id, count := r.count, affected := r.affected : HighImpact }
  ⟨high, Std.ExtTreeMap.ofList all compare, high.map HighImpact.recommendation⟩

/-- All modules by their complexity. -/
def complexityBuckets (g : Graph) : ComplexityBuckets :=
  .ofScores (g.modules.toList.map fun (id, m) => (id, m.complexityScore))

end Graph

end StackGraph
