import StackGraph.Graph
import StackGraph.Proofs.Ordered
/-!
# Edges and how they come about

The graph stores its edges as the keys of a map, each with the evidence for
it, and every analysis reads them through `Graph.dependents` or
`Graph.upstream`. Both list the neighbours in one relation, `Graph.HasEdge`.

A graph is made in two rounds: first its modules are added, then its edges. An
edge that cannot be added changes nothing, and an edge that is there already
only gains evidence, so what a series of additions leaves can be said at once:
the evidence for an edge is what was there and what the additions bring whose
ends are two different modules (`Graph.mem_evidenceFor_foldl_addEdge`). In such
a graph an edge never stands without evidence (`Graph.Evidenced`).
-/

namespace StackGraph

open Std

/-- The two ends of an edge. -/
def Edge.ends (e : Edge) : String × String := (e.source, e.target)

namespace Graph

variable {g : Graph} {a b : String}

/-! ## Edges -/

/-- An edge runs from the first module to the second. -/
def HasEdge (g : Graph) (a b : String) : Prop := (a, b) ∈ g.evidence

instance : DecidableRel g.HasEdge := fun a b => inferInstanceAs (Decidable ((a, b) ∈ g.evidence))

theorem HasEdge.source_mem (h : g.HasEdge a b) : a ∈ g.modules :=
  (g.ends_mem (a, b) h).1

theorem HasEdge.target_mem (h : g.HasEdge a b) : b ∈ g.modules :=
  (g.ends_mem (a, b) h).2.1

theorem HasEdge.ne (h : g.HasEdge a b) : a ≠ b :=
  (g.ends_mem (a, b) h).2.2

@[simp] theorem mem_ids {id : String} : id ∈ g.ids ↔ id ∈ g.modules :=
  ExtTreeMap.mem_keys

theorem nodup_ids : g.ids.Nodup := ExtTreeMap.nodup_keys

/-- What is listed for some of the edges. -/
theorem mem_map_filter_edges {p : String × String → Bool} {f : String × String → String}
    {x : String} :
    x ∈ (g.evidence.keys.filter p).map f ↔ ∃ a b, g.HasEdge a b ∧ p (a, b) ∧ f (a, b) = x := by
  rw [List.mem_map]
  simp only [List.mem_filter, ExtTreeMap.mem_keys]
  constructor
  · rintro ⟨⟨a, b⟩, ⟨he, hp⟩, hf⟩
    exact ⟨a, b, he, hp, hf⟩
  · rintro ⟨a, b, he, hp, hf⟩
    exact ⟨(a, b), ⟨he, hp⟩, hf⟩

/-- The modules that read from a module are the targets of its edges. -/
@[simp] theorem mem_dependents : b ∈ g.dependents a ↔ g.HasEdge a b := by
  rw [dependents, mem_map_filter_edges]
  simp

/-- The modules that a module reads from are the sources of its edges. -/
@[simp] theorem mem_upstream : a ∈ g.upstream b ↔ g.HasEdge a b := by
  rw [upstream, mem_map_filter_edges]
  simp

/-- The modules that a module reads from come out in order. -/
theorem pairwise_upstream : (g.upstream b).Pairwise (compare · · = .lt) := by
  rw [upstream, List.pairwise_map, List.pairwise_filter]
  -- the keys are in order of pairs, and those that are kept share the second component
  refine ExtTreeMap.ordered_keys.imp fun {e e'} hlt he he' => ?_
  have hsame : compare e.2 e'.2 = .eq := by
    rw [beq_iff_eq.1 he, beq_iff_eq.1 he']
    exact ReflCmp.compare_self
  simpa [comparePair, compareLex, compareOn, Ordering.then_eq_lt, hsame] using hlt

/-- The modules that read from a module come out in order. -/
theorem pairwise_dependents : (g.dependents a).Pairwise (compare · · = .lt) := by
  rw [dependents, List.pairwise_map, List.pairwise_filter]
  -- here the keys that are kept share the first component
  refine ExtTreeMap.ordered_keys.imp fun {e e'} hlt he he' => ?_
  have hsame : compare e.1 e'.1 = .eq := by
    rw [beq_iff_eq.1 he, beq_iff_eq.1 he']
    exact ReflCmp.compare_self
  simpa [comparePair, compareLex, compareOn, Ordering.then_eq_lt, hsame] using hlt

/-- The listed edges are the edges of the graph, by their ends. -/
theorem map_ends_edges : g.edges.map Edge.ends = g.evidence.keys := by
  rw [edges, List.map_map, ← ExtTreeMap.map_fst_toList_eq_keys]
  rfl

theorem mem_map_ends_edges : (a, b) ∈ g.edges.map Edge.ends ↔ g.HasEdge a b := by
  rw [map_ends_edges, ExtTreeMap.mem_keys, HasEdge]

theorem hasEdge_of_mem_edges {e : Edge} (h : e ∈ g.edges) : g.HasEdge e.source e.target :=
  mem_map_ends_edges.1 (List.mem_map_of_mem h)

/-! ## Adding modules -/

@[simp] theorem evidence_foldl_addModule {ms : List Module} :
    (ms.foldl addModule g).evidence = g.evidence := by
  induction ms generalizing g with
  | nil => rfl
  | cons m ms ih => rw [List.foldl_cons, ih, addModule]

theorem modules_foldl_addModule {ms : List Module} :
    (ms.foldl addModule g).modules
      = ms.foldl (fun modules m => modules.insert m.id m) g.modules := by
  induction ms generalizing g with
  | nil => rfl
  | cons m ms ih => rw [List.foldl_cons, List.foldl_cons, ih, addModule]

/-- Modules that are added to nothing make up the map of their ids. -/
theorem modules_foldl_addModule_empty {ms : List Module} :
    (ms.foldl addModule empty).modules
      = ExtTreeMap.ofList (ms.map fun m => (m.id, m)) compare := by
  rw [modules_foldl_addModule, ExtTreeMap.ofList_eq_foldl, List.foldl_map]
  rfl

/-- There is no evidence for anything yet. -/
theorem evidenceFor_foldl_addModule_empty {ms : List Module} :
    (ms.foldl addModule empty).evidenceFor a b = ∅ := by
  rw [evidenceFor, evidence_foldl_addModule]
  rfl

/-! ## Adding edges -/

/-- **No edge without evidence.** -/
def Evidenced (g : Graph) : Prop := ∀ a b, g.HasEdge a b ↔ ∃ kind, kind ∈ g.evidenceFor a b

/-- Modules alone are evidenced, since there is no edge yet. -/
theorem evidenced_of_evidence_eq_empty (h : g.evidence = ∅) : g.Evidenced := by
  intro a b
  simp [HasEdge, evidenceFor, h]

variable {s t : String} {k kind : EdgeKind}

@[simp] theorem modules_addEdge : (g.addEdge s t k).modules = g.modules := by
  unfold addEdge addEdge?
  split <;> rfl

/-- **What one addition brings**: its kind as evidence for its edge, if the
ends are two different modules, and nothing else. -/
theorem mem_evidenceFor_addEdge :
    kind ∈ (g.addEdge s t k).evidenceFor a b
      ↔ kind ∈ g.evidenceFor a b
        ∨ (s ∈ g.modules ∧ t ∈ g.modules ∧ s ≠ t) ∧ s = a ∧ t = b ∧ k = kind := by
  unfold addEdge addEdge?
  split
  · rename_i hends
    rw [Option.getD_some]
    -- only the entry of the added edge differs
    show kind ∈ ((g.evidence.insert (s, t) _)[(a, b)]?).getD ∅ ↔ _
    by_cases hab : (s, t) = (a, b)
    · obtain ⟨rfl, rfl⟩ := Prod.mk.inj hab
      rw [ExtTreeMap.getElem?_insert_self, Option.getD_some, ExtTreeSet.mem_insert,
        LawfulEqCmp.compare_eq_iff_eq, or_comm]
      simp [hends]
    · rw [getElem?_insert_of_ne hab]
      have hne : ¬ (s = a ∧ t = b) := fun h => hab (by rw [h.1, h.2])
      show kind ∈ g.evidenceFor a b ↔ _
      constructor
      · exact .inl
      · rintro (h | ⟨-, hs, ht, -⟩)
        · exact h
        · exact absurd ⟨hs, ht⟩ hne
  · rename_i hends
    simp [hends]

/-- An addition keeps a graph evidenced. -/
theorem Evidenced.addEdge (h : g.Evidenced) : (g.addEdge s t k).Evidenced := by
  intro a b
  simp only [mem_evidenceFor_addEdge, exists_or, ← h a b]
  unfold Graph.addEdge addEdge?
  split
  · rename_i hends
    rw [Option.getD_some]
    show (a, b) ∈ g.evidence.insert (s, t) _ ↔ _
    rw [ExtTreeMap.mem_insert, LawfulEqCmp.compare_eq_iff_eq, or_comm, Prod.mk.injEq]
    simp [hends, HasEdge]
  · rename_i hends
    simp [hends]

/-- Evidenced graphs with evidence for the same edges have the same edges. -/
theorem Evidenced.evidence_eq {g' : Graph} (hg : g.Evidenced) (hg' : g'.Evidenced)
    (h : ∀ a b kind, kind ∈ g.evidenceFor a b ↔ kind ∈ g'.evidenceFor a b) :
    g.evidence = g'.evidence := by
  have hfor : ∀ a b, g.evidenceFor a b = g'.evidenceFor a b := by
    intro a b
    ext kind
    exact h a b kind
  have hmem : ∀ a b, (a, b) ∈ g.evidence ↔ (a, b) ∈ g'.evidence := by
    intro a b
    show g.HasEdge a b ↔ g'.HasEdge a b
    rw [hg a b, hg' a b, hfor]
  refine ExtTreeMap.ext_getElem? fun ⟨a, b⟩ => ?_
  by_cases he : (a, b) ∈ g.evidence
  · have he' := (hmem a b).1 he
    have heq := hfor a b
    rw [evidenceFor, evidenceFor, ExtTreeMap.getElem?_eq_some_getElem he,
      ExtTreeMap.getElem?_eq_some_getElem he', Option.getD_some, Option.getD_some] at heq
    rw [ExtTreeMap.getElem?_eq_some_getElem he, ExtTreeMap.getElem?_eq_some_getElem he', heq]
  · rw [ExtTreeMap.getElem?_eq_none he,
      ExtTreeMap.getElem?_eq_none fun he' => he ((hmem a b).2 he')]

/-! ### Adding several edges -/

section Several

variable {α : Type} {source target : α → String} {kindOf : α → EdgeKind} {xs : List α}

@[simp] theorem modules_foldl_addEdge :
    (xs.foldl (fun g x => g.addEdge (source x) (target x) (kindOf x)) g).modules = g.modules := by
  induction xs generalizing g with
  | nil => rfl
  | cons x xs ih => rw [List.foldl_cons, ih, modules_addEdge]

/-- **What several additions bring**: the kinds of those whose ends are two
different modules, and nothing else. -/
theorem mem_evidenceFor_foldl_addEdge :
    kind ∈ (xs.foldl (fun g x => g.addEdge (source x) (target x) (kindOf x)) g).evidenceFor a b
      ↔ kind ∈ g.evidenceFor a b
        ∨ (a ∈ g.modules ∧ b ∈ g.modules ∧ a ≠ b)
          ∧ ∃ x ∈ xs, source x = a ∧ target x = b ∧ kindOf x = kind := by
  induction xs generalizing g with
  | nil => simp
  | cons x xs ih =>
    rw [List.foldl_cons, ih, mem_evidenceFor_addEdge, modules_addEdge, or_assoc]
    simp only [List.mem_cons, exists_eq_or_imp, and_or_left]
    refine or_congr_right (or_congr_left ?_)
    constructor
    · rintro ⟨hends, rfl, rfl, rfl⟩
      exact ⟨hends, rfl, rfl, rfl⟩
    · rintro ⟨hends, rfl, rfl, rfl⟩
      exact ⟨hends, rfl, rfl, rfl⟩

/-- **Every graph that is made by additions is evidenced.** -/
theorem Evidenced.foldl_addEdge (h : g.Evidenced) :
    (xs.foldl (fun g x => g.addEdge (source x) (target x) (kindOf x)) g).Evidenced := by
  induction xs generalizing g with
  | nil => exact h
  | cons x xs ih => exact ih h.addEdge

end Several

end Graph

end StackGraph
