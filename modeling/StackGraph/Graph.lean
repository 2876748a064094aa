import StackGraph.Module
/-!
# The dependency graph

Modules and the edges between them. An edge runs from a module to one that reads from it, so its
source is deployed before its target; it remembers whether it was declared, inferred from a
reference, or both.

The type keeps what every graph satisfies: a module is stored under its own id, both ends of an edge
are modules, and no module has an edge to itself. `Graph.addEdge?` refuses an edge that would break
this.
-/

namespace StackGraph

open Std

/-- How an edge is known. -/
inductive EdgeKind where
  /-- Declared in an orchestration file. -/
  | explicit
  /-- Seen in the text of an expression. -/
  | inferred
deriving DecidableEq, Repr

namespace EdgeKind

/-- The name of a kind. -/
def text : EdgeKind → String
  | explicit => "explicit"
  | inferred => "inferred"

/-- Declared edges come first. -/
def rank : EdgeKind → Nat
  | explicit => 0
  | inferred => 1

/-- Two kinds with one place in the order are the same. -/
theorem rank_injective {a b : EdgeKind} (h : a.rank = b.rank) : a = b := by
  cases a <;> cases b <;> first | rfl | cases h

/-- Kinds in their order. -/
def compare : EdgeKind → EdgeKind → Ordering := compareOn rank

instance : TransCmp compare := inferInstanceAs (TransCmp (compareOn rank))

instance : LawfulEqCmp compare where
  eq_of_compare h := rank_injective (LawfulEqCmp.eq_of_compare h)
  compare_self := by simp [compare, compareOn, ReflCmp.compare_self]

end EdgeKind

/-- The ways in which an edge is known. -/
abbrev Evidence := ExtTreeSet EdgeKind EdgeKind.compare

/-- The kind of an edge: declared as soon as it is declared once. -/
def Evidence.kind (e : Evidence) : EdgeKind := if .explicit ∈ e then .explicit else .inferred

/-- An edge: `source` is deployed before `target`. -/
structure Edge where
  source : String
  target : String
  kind : EdgeKind
  evidence : Evidence

/-- A dependency graph. -/
structure Graph where
  modules : NameMap Module
  /-- The evidence for each edge, by its source and target. -/
  evidence : ExtTreeMap (String × String) Evidence comparePair
  /-- A module is stored under its id. -/
  id_eq : ∀ (id : String) (m : Module), modules[id]? = some m → m.id = id
  /-- The ends of an edge are modules, and they differ. -/
  ends_mem : ∀ e : String × String, e ∈ evidence → e.1 ∈ modules ∧ e.2 ∈ modules ∧ e.1 ≠ e.2

namespace Graph

/-- The graph without modules. -/
def empty : Graph where
  modules := ∅
  evidence := ∅
  id_eq := by simp
  ends_mem := by simp

instance : Inhabited Graph := ⟨empty⟩

/-- The graph with a module, which replaces one of the same id. -/
def addModule (g : Graph) (m : Module) : Graph where
  modules := g.modules.insert m.id m
  evidence := g.evidence
  id_eq := by
    intro id n h
    rw [ExtTreeMap.getElem?_insert] at h
    split at h
    · rename_i hc
      cases h
      exact LawfulEqCmp.eq_of_compare hc
    · exact g.id_eq id n h
  ends_mem := by
    intro e he
    have := g.ends_mem e he
    simp only [ExtTreeMap.mem_insert]
    exact ⟨.inr this.1, .inr this.2.1, this.2.2⟩

/-- The evidence for an edge; none if there is no such edge. -/
def evidenceFor (g : Graph) (source target : String) : Evidence :=
  (g.evidence[(source, target)]?).getD ∅

/-- The graph with an edge of the given kind, unless an end is unknown or both are the same. -/
def addEdge? (g : Graph) (source target : String) (kind : EdgeKind) : Option Graph :=
  if h : source ∈ g.modules ∧ target ∈ g.modules ∧ source ≠ target then
    some
      { g with
        evidence := g.evidence.insert (source, target) ((g.evidenceFor source target).insert kind)
        ends_mem := by
          intro e he
          rcases ExtTreeMap.mem_insert.1 he with he | he
          · rw [← LawfulEqCmp.eq_of_compare he]
            exact h
          · exact g.ends_mem e he }
  else none

/-- The graph with an edge of the given kind if it can be added, and unchanged otherwise. -/
def addEdge (g : Graph) (source target : String) (kind : EdgeKind) : Graph :=
  (g.addEdge? source target kind).getD g

/-- The ids of the modules, in order. -/
def ids (g : Graph) : List String := g.modules.keys

/-- The edge between two modules, if there is one. -/
def edge? (g : Graph) (source target : String) : Option Edge :=
  (g.evidence[(source, target)]?).map fun evidence => ⟨source, target, evidence.kind, evidence⟩

/-- The edges, by source and then target. -/
def edges (g : Graph) : List Edge :=
  g.evidence.toList.map fun (ends, evidence) => ⟨ends.1, ends.2, evidence.kind, evidence⟩

/-- The modules that an edge runs from to the given one, in order. -/
def upstream (g : Graph) (id : String) : List String :=
  (g.evidence.keys.filter (·.2 == id)).map Prod.fst

/-- The modules that an edge runs to from the given one, in order. -/
def dependents (g : Graph) (id : String) : List String :=
  (g.evidence.keys.filter (·.1 == id)).map Prod.snd

/-! ### Reachability and layers -/

/-- The modules reached from a frontier, together with those reached before. Each round reaches a
new module or ends. -/
def reachFrom (g : Graph) : Nat → NameSet → List String → NameSet
  | 0, reached, _ => reached
  | rounds + 1, reached, frontier =>
    let fresh := frontier.filter (· ∉ reached)
    if fresh.isEmpty then reached
    else g.reachFrom rounds (reached.insertMany fresh)
      (ExtTreeSet.ofList (fresh.flatMap g.dependents) compare).toList

/-- Every module that is deployed after the given one, which is not among them. -/
def downstream (g : Graph) (id : String) : NameSet :=
  (g.reachFrom (g.modules.size + 1) ∅ (g.dependents id)).erase id

/-- Whether every module that comes before the given one has been placed. -/
def isFree (g : Graph) (remaining : List String) (id : String) : Bool :=
  (g.upstream id).all fun u => !remaining.contains u

/-- The next layer of the modules that remain: those that wait for none of them, or the first if
all wait. -/
def nextLayer (g : Graph) (remaining : List String) : List String :=
  let free := remaining.filter (g.isFree remaining)
  if free.isEmpty then remaining.take 1 else free

/-- The layers of the modules that remain, in at most as many rounds as given. -/
def layersOf (g : Graph) : Nat → List String → List (List String)
  | 0, _ => []
  | rounds + 1, remaining =>
    if remaining.isEmpty then []
    else
      let layer := g.nextLayer remaining
      layer :: g.layersOf rounds (remaining.filter fun id => !layer.contains id)

/-- The modules in the order of deployment: each layer waits only for earlier ones. Where only
modules on cycles are left, the one with the smallest id is placed alone. -/
def layers (g : Graph) : List (List String) := g.layersOf g.modules.size g.ids

end Graph

end StackGraph
