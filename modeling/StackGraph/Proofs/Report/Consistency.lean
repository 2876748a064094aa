import Mathlib.Algebra.BigOperators.Group.List.Lemmas
import StackGraph.Proofs.Build.Dependencies
import StackGraph.Proofs.Graph.Layers
import StackGraph.Report
/-!
# Reports that agree with themselves

A report is plain data, and its sections come from different places: the
neighbours of a module and the list of edges from the edges of the graph, the
declared and the inferred dependencies from what the module was given, the
buckets and the layers from traversals of their own. Nothing in the type makes
them agree. `Report.IsConsistent` says what a reader of a report relies on: the
neighbours, the dependencies by their origin and the edges are one relation,
counting it by either end gives the reported number, and every module stands
once in the buckets and once in the layers.

For the two ends of an edge this is a matter of counting: every edge has one
target, which is a module, so the lists of all modules together are as long as
the list of edges (`sum_countP_eq_length`). For the origin of a dependency it
is what the builder leaves in its modules (`Module.Agrees`). Every report of a
built graph is consistent (`Graph.isConsistent_report_build`).
-/

namespace StackGraph

open Std

/-- **What the sections of a report say about each other.** -/
structure Report.IsConsistent (r : Report) : Prop where
  /-- The dependencies of a module are the sources of the edges into it. -/
  mem_dependencies_iff : ∀ u v : String,
    (∃ m, r.modules[v]? = some m ∧ u ∈ m.dependencies) ↔ (u, v) ∈ r.edges.map Edge.ends
  /-- The dependents of a module are the targets of the edges out of it. -/
  mem_dependents_iff : ∀ u v : String,
    (∃ m, r.modules[u]? = some m ∧ v ∈ m.dependents) ↔ (u, v) ∈ r.edges.map Edge.ends
  /-- The dependencies of a module are in order. -/
  dependencies_sorted : ∀ (id : String) (m : ModuleReport), r.modules[id]? = some m →
    m.dependencies.Pairwise (· < ·)
  /-- They are the declared and the inferred ones together. -/
  dependencies_perm : ∀ (id : String) (m : ModuleReport), r.modules[id]? = some m →
    m.dependencies.Perm (m.declaredDependencies ++ m.inferredReferences)
  /-- No dependency is both. -/
  disjoint : ∀ (id : String) (m : ModuleReport), r.modules[id]? = some m →
    m.declaredDependencies.Disjoint m.inferredReferences
  /-- Each edge is counted once as a dependency. -/
  sum_dependencies :
    (r.modules.values.map fun m => m.dependencies.length).sum = r.totalDependencies
  /-- Each edge is counted once as a dependent. -/
  sum_dependents : (r.modules.values.map fun m => m.dependents.length).sum = r.totalDependencies
  /-- Every module stands in one bucket, once. -/
  complexity_perm :
    (r.complexity.high ++ r.complexity.medium ++ r.complexity.low).Perm r.modules.keys
  /-- Every module stands in one layer, once. -/
  layers_perm : r.layers.flatten.Perm r.modules.keys

/-! ## Counting by a key -/

section Counting

variable {α β : Type} [DecidableEq β] {keys : List β} {xs : List α}

/-- **Counted by their keys, elements are counted once each**, if every key is
there and none twice. -/
theorem sum_countP_eq_length (key : α → β) (hkeys : keys.Nodup) (h : ∀ x ∈ xs, key x ∈ keys) :
    (keys.map fun k => xs.countP (key · == k)).sum = xs.length := by
  induction xs with
  | nil => simp
  | cons x xs ih =>
    obtain ⟨hx, hxs⟩ := List.forall_mem_cons.1 h
    -- the first element is counted under its own key alone
    have hone : (keys.map fun k => if key x == k then 1 else 0).sum = 1 := by
      rw [List.sum_map_eq_nsmul_single (key x) _ fun k hne _ => if_neg (by simpa using hne.symm),
        List.count_eq_one_of_mem hkeys hx]
      simp
    simp only [List.countP_cons, List.sum_map_add, ih hxs, hone, List.length_cons]

end Counting

/-! ## The sections of a report -/

/-- Every score falls into one bucket. -/
theorem ComplexityBuckets.ofScores_perm (scores : List (String × Nat)) :
    ((ofScores scores).high ++ (ofScores scores).medium ++ (ofScores scores).low).Perm
      (scores.map Prod.fst) := by
  induction scores with
  | nil => exact List.Perm.nil
  | cons s scores ih =>
    simp only [ofScores, List.filter_cons, List.map_cons] at ih ⊢
    -- a score above ten comes first, and one between in the middle
    rcases lt_or_ge 10 s.2 with hhigh | hle
    · have hnot : ¬ s.2 ≤ 10 := by omega
      have hnot' : ¬ s.2 ≤ 5 := by omega
      simpa [hhigh, hnot, hnot'] using ih
    · have hnot : ¬ 10 < s.2 := by omega
      rcases lt_or_ge 5 s.2 with hmedium | hlow
      · have hnot' : ¬ s.2 ≤ 5 := by omega
        rw [List.append_assoc] at ih
        simpa [hnot, hmedium, hle, hnot'] using List.perm_middle.trans (ih.cons s.1)
      · have hnot' : ¬ 5 < s.2 := by omega
        simpa [hnot, hnot', hlow] using List.perm_middle.trans (ih.cons s.1)

namespace Module.Agrees

variable {g : Graph} {m : Module}

theorem disjoint_toList (h : m.Agrees g) :
    m.declaredDependencies.toList.Disjoint m.inferredReferences.toList :=
  fun t hdeclared hinferred =>
    h.disjoint t (ExtTreeSet.mem_toList.1 hdeclared) (ExtTreeSet.mem_toList.1 hinferred)

/-- The dependencies of a module are the declared and the inferred ones, each
once. -/
theorem dependencies_perm (h : m.Agrees g) :
    m.dependencies.toList.Perm
      (m.declaredDependencies.toList ++ m.inferredReferences.toList) := by
  have hnodup := nodup_setToList.append nodup_setToList h.disjoint_toList
  refine (List.perm_ext_iff_of_nodup nodup_setToList hnodup).2 fun t => ?_
  rw [List.mem_append, ExtTreeSet.mem_toList, ExtTreeSet.mem_toList, ExtTreeSet.mem_toList,
    Module.dependencies, ExtTreeSet.mem_union_iff]

end Module.Agrees

namespace Graph

variable {g : Graph} {scanRoot : Path} {generatedAt : Option Timestamp}
variable {diagnostics : List Diagnostic} {id : String} {r : ModuleReport}

theorem getElem?_modules_report :
    (g.report scanRoot generatedAt diagnostics).modules[id]? = some r
      ↔ ∃ m, g.modules[id]? = some m ∧ g.moduleReport m = r := by
  show (g.modules.map fun _ m => g.moduleReport m)[id]? = some r ↔ _
  rw [ExtTreeMap.getElem?_map, Option.map_eq_some_iff]

theorem exists_getElem?_report (h : id ∈ g.modules) :
    ∃ r, (g.report scanRoot generatedAt diagnostics).modules[id]? = some r :=
  ⟨_, getElem?_modules_report.2 ⟨_, ExtTreeMap.getElem?_eq_some_getElem h, rfl⟩⟩

theorem keys_modules_report :
    (g.report scanRoot generatedAt diagnostics).modules.keys = g.ids :=
  ExtTreeMap.keys_map

/-- A reported module lists the neighbours of its id. -/
theorem neighbours_of_getElem?_report
    (h : (g.report scanRoot generatedAt diagnostics).modules[id]? = some r) :
    r.dependencies = g.upstream id ∧ r.dependents = g.dependents id := by
  obtain ⟨m, hm, rfl⟩ := getElem?_modules_report.1 h
  rw [moduleReport, g.id_eq id m hm]
  exact ⟨rfl, rfl⟩

/-- What is counted for the reported modules is counted for their ids. -/
theorem map_values_modules_report {f : ModuleReport → Nat} {f' : String → Nat}
    (h : ∀ id r, (g.report scanRoot generatedAt diagnostics).modules[id]? = some r → f r = f' id) :
    (g.report scanRoot generatedAt diagnostics).modules.values.map f = g.ids.map f' := by
  have hkeys : (g.report scanRoot generatedAt diagnostics).modules.keys = g.ids :=
    keys_modules_report
  rw [← hkeys, values_eq_map_toList, ← ExtTreeMap.map_fst_toList_eq_keys, List.map_map,
    List.map_map]
  refine List.map_congr_left fun p hp => ?_
  exact h p.1 p.2 (ExtTreeMap.mem_toList_iff_getElem?_eq_some.1 hp)

/-- All dependencies together are as many as the edges. -/
theorem sum_length_upstream :
    (g.ids.map fun id => (g.upstream id).length).sum = g.evidence.size := by
  simp only [upstream, List.length_map, ← List.countP_eq_length_filter]
  rw [sum_countP_eq_length Prod.snd nodup_ids, ExtTreeMap.length_keys]
  exact fun e he => mem_ids.2 (g.ends_mem e (ExtTreeMap.mem_keys.1 he)).2.1

/-- All dependents together are as many as the edges. -/
theorem sum_length_dependents :
    (g.ids.map fun id => (g.dependents id).length).sum = g.evidence.size := by
  simp only [dependents, List.length_map, ← List.countP_eq_length_filter]
  rw [sum_countP_eq_length Prod.fst nodup_ids, ExtTreeMap.length_keys]
  exact fun e he => mem_ids.2 (g.ends_mem e (ExtTreeMap.mem_keys.1 he)).1

/-- The buckets hold every module once. -/
theorem complexityBuckets_perm :
    (g.complexityBuckets.high ++ g.complexityBuckets.medium ++ g.complexityBuckets.low).Perm
      g.ids := by
  refine (ComplexityBuckets.ofScores_perm _).trans ?_
  rw [List.map_map, ids, ← ExtTreeMap.map_fst_toList_eq_keys]
  rfl

/-- **Reports agree with themselves if modules agree with their graph.** -/
theorem isConsistent_report
    (h : ∀ (id : String) (m : Module), g.modules[id]? = some m → m.Agrees g) :
    (g.report scanRoot generatedAt diagnostics).IsConsistent where
  mem_dependencies_iff u v := by
    show _ ↔ (u, v) ∈ g.edges.map Edge.ends
    rw [mem_map_ends_edges]
    constructor
    · rintro ⟨r, hr, hu⟩
      rw [(neighbours_of_getElem?_report hr).1] at hu
      exact mem_upstream.1 hu
    · intro hedge
      obtain ⟨r, hr⟩ := exists_getElem?_report hedge.target_mem
      refine ⟨r, hr, ?_⟩
      rw [(neighbours_of_getElem?_report hr).1]
      exact mem_upstream.2 hedge
  mem_dependents_iff u v := by
    show _ ↔ (u, v) ∈ g.edges.map Edge.ends
    rw [mem_map_ends_edges]
    constructor
    · rintro ⟨r, hr, hv⟩
      rw [(neighbours_of_getElem?_report hr).2] at hv
      exact mem_dependents.1 hv
    · intro hedge
      obtain ⟨r, hr⟩ := exists_getElem?_report hedge.source_mem
      refine ⟨r, hr, ?_⟩
      rw [(neighbours_of_getElem?_report hr).2]
      exact mem_dependents.2 hedge
  dependencies_sorted id r hr := by
    rw [(neighbours_of_getElem?_report hr).1]
    exact pairwise_upstream.imp compareName_eq_lt.1
  dependencies_perm id r hr := by
    obtain ⟨m, hm, rfl⟩ := getElem?_modules_report.1 hr
    show (g.upstream m.id).Perm _
    rw [(h id m hm).upstream_eq]
    exact (h id m hm).dependencies_perm
  disjoint id r hr := by
    obtain ⟨m, hm, rfl⟩ := getElem?_modules_report.1 hr
    exact (h id m hm).disjoint_toList
  sum_dependencies := by
    rw [map_values_modules_report fun id r hr =>
      congrArg List.length (neighbours_of_getElem?_report hr).1]
    exact sum_length_upstream
  sum_dependents := by
    rw [map_values_modules_report fun id r hr =>
      congrArg List.length (neighbours_of_getElem?_report hr).2]
    exact sum_length_dependents
  complexity_perm := by
    rw [keys_modules_report]
    exact complexityBuckets_perm
  layers_perm := by
    rw [keys_modules_report]
    exact flatten_layers_perm

/-- **Every report of a built graph is consistent**, whatever the fragments
are. -/
theorem isConsistent_report_build (root : ScanRoot) (fragments : List Fragment) (scanRoot : Path)
    (generatedAt : Option Timestamp) (diagnostics : List Diagnostic) :
    ((build root fragments).graph.report scanRoot generatedAt diagnostics).IsConsistent :=
  isConsistent_report fun id m hm => (agrees_build root fragments id m hm).2

end Graph

end StackGraph
