import StackGraph.Graph.Suggestion
import StackGraph.Proofs.Graph.Additions
import StackGraph.Proofs.Graph.CycleEdges
/-!
# Suggestions for a cycle

For every cycle of a graph there are three suggestions, and each names modules
of the graph for a reason (`Graph.suggest_exactly`):

* those that stand outside the cycle with an edge to every member
  (`Graph.IsCommonSource`), or else the members;
* the ends of the edge of the cycle that is the easiest one to give up
  (`Graph.IsWeakest`): an inferred one if there is any, and of those the least;
* the two members of a shortest cycle, or else the ends of the edge that returns
  to the least member.

That there are always three rests on the cycle being one of the graph: its edges
are stored, so there is one to give up.
-/

namespace StackGraph

open Std

/-- The first element of a sorted list is a least one. -/
theorem isLE_of_head?_sortBy {α : Type} {cmp : α → α → Ordering} [TransCmp cmp] {xs : List α}
    {a b : α} (h : (sortBy cmp xs).head? = some a) (hb : b ∈ xs) : (cmp a b).isLE := by
  obtain ⟨rest, hsorted⟩ := List.head?_eq_some_iff.1 h
  have hpairwise : (sortBy cmp xs).Pairwise fun a b => (cmp a b).isLE := pairwise_isLE_sortBy
  rw [hsorted] at hpairwise
  have hmem : b ∈ sortBy cmp xs := mem_sortBy.2 hb
  rw [hsorted, List.mem_cons] at hmem
  rcases hmem with rfl | hmem
  · have hself : cmp b b = .eq := ReflCmp.compare_self
    rw [hself]
    rfl
  · exact List.rel_of_pairwise_cons hpairwise hmem

namespace Edge

/-- How firmly an edge is known: a declaration is more than a reference. -/
def strength (e : Edge) : Nat :=
  match e.kind with
  | .inferred => 0
  | .explicit => 1

/-- Weaker edges come first, edges of one strength by their ends. -/
def compareStrength : Edge → Edge → Ordering :=
  compareLex (compareOn strength) fun a b => comparePair a.ends b.ends

instance : TransCmp fun a b : Edge => comparePair a.ends b.ends where
  eq_swap := OrientedCmp.eq_swap
  isLE_trans := TransCmp.isLE_trans

instance : TransCmp compareStrength :=
  inferInstanceAs (TransCmp (compareLex (compareOn strength)
    fun a b : Edge => comparePair a.ends b.ends))

/-- **An edge comes no later than another one** by its source and then its
target. -/
def AtMost (a b : Edge) : Prop := a.source < b.source ∨ a.source = b.source ∧ a.target ≤ b.target

variable {a b : Edge}

theorem atMost_of_comparePair (h : (comparePair a.ends b.ends).isLE) : a.AtMost b := by
  rw [comparePair, compareLex, Ordering.isLE_then_iff_or] at h
  rcases h with h | ⟨hsource, htarget⟩
  · exact .inl (compareName_eq_lt.1 h)
  · refine .inr ⟨LawfulEqCmp.eq_of_compare hsource, ?_⟩
    rcases Ordering.isLE_iff_eq_lt_or_eq_eq.1 htarget with h | h
    · exact String.not_lt.1 (String.lt_asymm (compareName_eq_lt.1 h))
    · exact (LawfulEqCmp.eq_of_compare h : a.target = b.target) ▸ String.le_refl _

/-- The first one in the order is weaker, or as strong and no later. -/
theorem strength_lt_or_of_isLE (h : (compareStrength a b).isLE) :
    a.strength < b.strength ∨ a.strength = b.strength ∧ a.AtMost b := by
  simp only [compareStrength, compareLex, compareOn, Ordering.isLE_then_iff_or, Nat.compare_eq_lt,
    Nat.compare_eq_eq] at h
  exact h.imp_right fun h => ⟨h.1, atMost_of_comparePair h.2⟩

end Edge

namespace Graph

variable {g : Graph} {c : Cycle} {e : Edge} {u first : String} {rest : List String}

/-! ## What the members share -/

/-- **A common source** of a cycle: a module outside of it with an edge to every
member. -/
def IsCommonSource (g : Graph) (c : Cycle) (u : String) : Prop :=
  u ∉ c.members ∧ ∀ m ∈ c.members, g.HasEdge u m

theorem mem_sharedUpstream (hne : c.members ≠ []) :
    u ∈ g.sharedUpstream c ↔ g.IsCommonSource c u := by
  unfold sharedUpstream IsCommonSource
  split
  · rename_i hnil
    exact absurd hnil hne
  · rename_i first rest hmembers
    rw [hmembers]
    simp only [List.mem_filter, mem_upstream, Bool.and_eq_true, List.all_eq_true,
      List.contains_iff_mem, Bool.not_eq_true', ← Bool.not_eq_true, List.forall_mem_cons]
    tauto

theorem pairwise_sharedUpstream : (g.sharedUpstream c).Pairwise (· < ·) := by
  unfold sharedUpstream
  split
  · exact .nil
  · exact (pairwise_upstream.imp compareName_eq_lt.1).filter _

/-- The first suggestion names the common sources, or the members. -/
theorem modules_extractCommonDependency :
    (g.extractCommonDependency c).modules
      = if (g.sharedUpstream c).isEmpty then c.members else g.sharedUpstream c := by
  unfold extractCommonDependency
  simp only
  split <;> rfl

/-! ## The weakest edge -/

/-- An edge of the graph lies on a cycle. -/
def LiesOn (g : Graph) (c : Cycle) (e : Edge) : Prop :=
  (e.source, e.target) ∈ c.edges ∧ g.edge? e.source e.target = some e

/-- **The weakest edge of a cycle**: it is inferred whenever an edge of the
cycle is, and of those of its kind it is the least. -/
structure IsWeakest (g : Graph) (c : Cycle) (e : Edge) : Prop where
  liesOn : g.LiesOn c e
  inferred : ∀ d, g.LiesOn c d → d.kind = .inferred → e.kind = .inferred
  least : ∀ d, g.LiesOn c d → d.kind = e.kind → e.AtMost d

theorem mem_filterMap_edge? :
    e ∈ c.edges.filterMap (fun (source, target) => g.edge? source target) ↔ g.LiesOn c e := by
  rw [List.mem_filterMap, LiesOn]
  constructor
  · rintro ⟨⟨a, b⟩, hmem, hedge⟩
    obtain ⟨-, rfl⟩ := edge?_eq_some_iff.1 hedge
    exact ⟨hmem, hedge⟩
  · rintro ⟨hmem, hedge⟩
    exact ⟨_, hmem, hedge⟩

/-- The edge that is chosen is the weakest one. -/
theorem isWeakest_of_weakestEdge? (h : g.weakestEdge? c = some e) : g.IsWeakest c e := by
  change (sortBy Edge.compareStrength _).head? = some e at h
  have hfirst : ∀ d, g.LiesOn c d → e.strength < d.strength
      ∨ e.strength = d.strength ∧ e.AtMost d := fun d hd =>
    Edge.strength_lt_or_of_isLE (isLE_of_head?_sortBy h (mem_filterMap_edge?.2 hd))
  refine ⟨mem_filterMap_edge?.1 (mem_sortBy.1 (List.mem_of_head? h)), fun d hd hkind => ?_,
    fun d hd hkind => ?_⟩
  · -- nothing is weaker than an inferred edge
    have hzero : d.strength = 0 := by rw [Edge.strength, hkind]
    have hstrength : e.strength = 0 := by
      rcases hfirst d hd with h | ⟨h, -⟩ <;> omega
    cases hk : e.kind with
    | inferred => rfl
    | explicit =>
      rw [Edge.strength, hk] at hstrength
      cases hstrength
  · refine ((hfirst d hd).resolve_left ?_).2
    rw [Edge.strength, Edge.strength, hkind]
    exact Nat.lt_irrefl _

/-- **Every cycle of the graph has a weakest edge**, since its edges are
stored. -/
theorem exists_weakestEdge? (hc : c ∈ g.cycles) : ∃ e, g.weakestEdge? c = some e := by
  obtain ⟨first, rest, hwalk, hcycle, -⟩ := mem_cycles.1 hc
  obtain ⟨next, others, rfl⟩ := List.exists_cons_of_ne_nil hcycle.ne_nil
  have hmem : (first, next) ∈ c.edges := Cycle.mem_edges.2 ⟨[], others ++ [first], hwalk⟩
  have hedge := (exists_mem_edges_iff.1 ⟨c, hc, hmem⟩).1
  have hlies : g.LiesOn c
      ⟨first, next, (g.evidenceFor first next).kind, g.evidenceFor first next⟩ :=
    ⟨hmem, edge?_eq_some_iff.2 ⟨hedge, rfl⟩⟩
  refine Option.isSome_iff_exists.1 (List.isSome_head?.2 ?_)
  exact List.ne_nil_of_mem (mem_sortBy.2 (mem_filterMap_edge?.2 hlies))

/-! ## The edge that returns -/

/-- The last pair of neighbours. -/
theorem getLast?_zip_tail {l : List String} {v : String} :
    ((l ++ [u, v]).zip (l ++ [u, v]).tail).getLast? = some (u, v) := by
  induction l with
  | nil => rfl
  | cons a l ih =>
    cases l with
    | nil => rfl
    | cons b l =>
      rw [List.cons_append, List.tail_cons, List.cons_append, List.zip_cons_cons,
        List.getLast?_cons]
      rw [List.cons_append, List.tail_cons] at ih
      rw [ih]
      rfl

/-- The edge that returns to the start runs from the last member to the first. -/
theorem closingEdge?_of_walk {last : String} (hwalk : c.walk = first :: rest ++ [first])
    (hlast : (first :: rest).getLast? = some last) : c.closingEdge? = some (last, first) := by
  obtain ⟨before, hsplit⟩ := List.getLast?_eq_some_iff.1 hlast
  rw [Cycle.closingEdge?, Cycle.edges, hwalk, hsplit, List.append_assoc]
  exact getLast?_zip_tail

/-- **An edge that returns to the least member** of a cycle. -/
structure Returns (c : Cycle) (source target : String) : Prop where
  mem_edges : (source, target) ∈ c.edges
  target_mem : target ∈ c.members
  least : ∀ m ∈ c.members, target ≤ m

/-- The last suggestion names both members of a cycle of two, and of a longer
one the ends of the edge that returns. -/
theorem modules_restructure (hc : c ∈ g.cycles) :
    (∃ a b, c.members = [a, b] ∧ c.restructure.modules = [a, b])
      ∨ 2 < c.members.length ∧ ∃ source target, Returns c source target
        ∧ c.restructure.modules = [source, target] := by
  obtain ⟨first, rest, hwalk, hcycle, habove⟩ := mem_cycles.1 hc
  have hmembers : c.members = first :: rest := by
    rw [Cycle.members, hwalk, List.dropLast_concat]
  obtain ⟨last, hlast⟩ : ∃ last, (first :: rest).getLast? = some last :=
    ⟨_, List.getLast?_eq_some_getLast (List.cons_ne_nil first rest)⟩
  have hclosing := closingEdge?_of_walk hwalk hlast
  unfold Cycle.restructure
  split
  · rename_i a b hab
    exact .inl ⟨a, b, hab, rfl⟩
  · rename_i hlong
    refine .inr ⟨?_, last, first, ⟨List.mem_of_getLast? hclosing, ?_, ?_⟩, ?_⟩
    · have hne := List.length_pos_iff.2 hcycle.ne_nil
      by_contra hshort
      rw [hmembers, List.length_cons] at hshort
      obtain ⟨b, rfl⟩ := List.length_eq_one_iff.1 (by omega : rest.length = 1)
      exact hlong first b hmembers
    · rw [hmembers]
      exact List.mem_cons_self
    · rw [hmembers]
      exact List.forall_mem_cons.2
        ⟨String.le_refl first, fun m hm => String.not_lt.1 (String.lt_asymm (habove m hm))⟩
    · rw [hclosing]
      rfl

/-- **The three suggestions for a cycle** of a graph. The first one names the
modules outside the cycle from which an edge runs to every member, in order, or
all members if there is none. The second one names the ends of the weakest edge
of the cycle. The third one names both members of a cycle of two, and otherwise
the ends of the edge that returns to the least member. -/
theorem suggest_exactly (g : Graph) {c : Cycle} (hc : c ∈ g.cycles) :
    ∃ extract lookup restructure, g.suggest c = [extract, lookup, restructure]
      ∧ extract.kind = .extractCommonDependency ∧ lookup.kind = .indirectLookup
      ∧ restructure.kind = .restructure
      ∧ ((∃ u, g.IsCommonSource c u) ∧ extract.modules.Pairwise (· < ·)
          ∧ (∀ u, u ∈ extract.modules ↔ g.IsCommonSource c u)
        ∨ (¬ ∃ u, g.IsCommonSource c u) ∧ extract.modules = c.members)
      ∧ (∃ e, g.IsWeakest c e ∧ lookup.modules = [e.source, e.target])
      ∧ ((∃ a b, c.members = [a, b] ∧ restructure.modules = [a, b])
        ∨ 2 < c.members.length ∧ ∃ source target, Returns c source target
          ∧ restructure.modules = [source, target]) := by
  obtain ⟨e, he⟩ := exists_weakestEdge? hc
  have hne : c.members ≠ [] := by
    obtain ⟨first, rest, hwalk, -⟩ := mem_cycles.1 hc
    rw [Cycle.members, hwalk, List.dropLast_concat]
    exact List.cons_ne_nil first rest
  refine ⟨g.extractCommonDependency c, indirectLookup e, c.restructure, ?_, ?_, rfl, ?_, ?_,
    ⟨e, isWeakest_of_weakestEdge? he, rfl⟩, modules_restructure hc⟩
  · rw [suggest, he]
    rfl
  · unfold extractCommonDependency
    simp only
    split <;> rfl
  · unfold Cycle.restructure
    split <;> rfl
  · rw [modules_extractCommonDependency]
    cases hshared : (g.sharedUpstream c).isEmpty with
    | true =>
      refine .inr ⟨?_, rfl⟩
      rintro ⟨u, hu⟩
      rw [← mem_sharedUpstream hne, List.isEmpty_iff.1 hshared] at hu
      exact List.not_mem_nil hu
    | false =>
      obtain ⟨u, hu⟩ := List.exists_mem_of_ne_nil _ (List.isEmpty_eq_false_iff.1 hshared)
      exact .inl ⟨⟨u, (mem_sharedUpstream hne).1 hu⟩, pairwise_sharedUpstream,
        fun u => mem_sharedUpstream hne⟩

/-- Two modules that need each other, one of them through a reference alone, and
both of them a third one. -/
def sharedNet : Graph :=
  let modules := ["app", "db", "net"].foldl (fun g id => g.addModule (.new id ⟨id⟩)) empty
  [("db", "app", .explicit), ("app", "db", .inferred), ("net", "app", .explicit),
    ("net", "db", .inferred)].foldl (fun g e => g.addEdge e.1 e.2.1 e.2.2) modules

/-- The suggestions for the cycle of the example: its members share `net`, and
the inferred edge is the one to give up. -/
theorem suggest_sharedNet :
    ⟨["app", "db", "app"]⟩ ∈ sharedNet.cycles ∧ ∃ extract lookup restructure,
      sharedNet.suggest ⟨["app", "db", "app"]⟩ = [extract, lookup, restructure]
        ∧ (∀ u, u ∈ extract.modules ↔ sharedNet.IsCommonSource ⟨["app", "db", "app"]⟩ u)
        ∧ sharedNet.IsCommonSource ⟨["app", "db", "app"]⟩ "net"
        ∧ ∃ e, sharedNet.IsWeakest ⟨["app", "db", "app"]⟩ e
          ∧ lookup.modules = [e.source, e.target] := by
  have hcycle : ⟨["app", "db", "app"]⟩ ∈ sharedNet.cycles := by decide +kernel
  have hnet : sharedNet.IsCommonSource ⟨["app", "db", "app"]⟩ "net" :=
    ⟨by decide +kernel, by decide +kernel⟩
  obtain ⟨extract, lookup, restructure, hsuggest, -, -, -, hextract, hlookup, -⟩ :=
    suggest_exactly sharedNet hcycle
  refine ⟨hcycle, extract, lookup, restructure, hsuggest, ?_, hnet, hlookup⟩
  rcases hextract with ⟨-, -, hextract⟩ | ⟨hnone, -⟩
  · exact hextract
  · exact absurd ⟨"net", hnet⟩ hnone

end Graph

end StackGraph
