import Mathlib.Data.Set.Card
import Mathlib.Tactic.TFAE
import StackGraph.Graph.Impact
import StackGraph.Proofs.Graph.Paths
/-!
# What a change reaches

Three parts of the library answer the question which modules a change of a
module reaches, each in its own way: `Graph.downstream` by rounds of a search
over a frontier, `Graph.paths` by writing down every simple path, and
`Graph.impact` for all modules at once, with the number of modules reached and
a list of those modules that reach too many. This module says that they give
one answer, the transitive closure of the edges without the module itself.

The module itself needs care only on a cycle. There it does reach itself, and
the three agree because each leaves it out for a reason of its own: the search
removes it at the end, and a simple path does not come back.
-/

namespace StackGraph

open Std Relation

namespace Graph

variable {g : Graph} {s t : String}

/-- **What a change of a module reaches**: the modules behind at least one
edge, the module itself apart. -/
def Affected (g : Graph) (s : String) : Set String := {t | t ≠ s ∧ TransGen g.HasEdge s t}

theorem mem_downstream_iff_affected : t ∈ g.downstream s ↔ t ∈ g.Affected s := mem_downstream

/-- **Another module is reached exactly if a recorded path leads to it.** -/
theorem exists_recorded_iff :
    (∃ path ∈ g.paths.values.flatten, Leads path s t) ↔ t ∈ g.Affected s := by
  simp only [mem_flatten_values]
  constructor
  · rintro ⟨path, hpath, hends⟩
    obtain ⟨hne, hreach⟩ := hpath.ne_and_transGen hends
    exact ⟨hne.symm, hreach⟩
  · rintro ⟨hne, hreach⟩
    exact exists_isSimplePath (Ne.symm hne) hreach

/-! ## The table of all modules -/

theorem getElem?_impact_reach (hs : s ∈ g.modules) : g.impact.reach[s]? = some (g.reachOf s) := by
  have hdistinct : g.ids.Pairwise (¬ compare · · = .eq) := ExtTreeMap.distinct_keys
  exact ExtTreeMap.getElem?_ofList_of_mem ReflCmp.compare_self (List.pairwise_map.2 hdistinct)
    (List.mem_map.2 ⟨s, mem_ids.2 hs, rfl⟩)

theorem mem_reachOf_affected : t ∈ (g.reachOf s).affected ↔ t ∈ g.Affected s := by
  rw [reachOf, ExtTreeSet.mem_toList, mem_downstream_iff_affected]

/-- **The count of a module is the number of modules it reaches.** -/
theorem encard_affected : (g.Affected s).encard = (g.reachOf s).count := by
  have hset : g.Affected s = ↑(g.downstream s).toList.toFinset := by
    ext t
    rw [List.coe_toFinset, Set.mem_ofPred_eq, ExtTreeSet.mem_toList, mem_downstream_iff_affected]
  rw [hset, Set.encard_coe_eq_coe_finsetCard, List.toFinset_card_of_nodup nodup_setToList]
  rfl

/-- A module is listed as one of high impact exactly if its count is above the
threshold. -/
theorem exists_mem_impact_high :
    (∃ h ∈ g.impact.high, h.module = s)
      ↔ s ∈ g.modules ∧ highImpactThreshold < (g.reachOf s).count := by
  simp only [impact, List.mem_map, List.mem_filter, decide_eq_true_eq]
  constructor
  · rintro ⟨_, ⟨_, ⟨⟨id, hid, rfl⟩, hcount⟩, rfl⟩, rfl⟩
    exact ⟨mem_ids.1 hid, hcount⟩
  · rintro ⟨hs, hcount⟩
    exact ⟨_, ⟨_, ⟨⟨s, mem_ids.2 hs, rfl⟩, hcount⟩, rfl⟩, rfl⟩

/-- **One answer to what a change reaches.** For another module it is the same
to be deployed after a module, to be reached from it by edges, to stand at the
end of a recorded path from it, and to be listed in its impact. A module is
never deployed after itself; its count is the number of modules it reaches; and
it is listed as one of high impact exactly if there are more than three. -/
theorem affected_agree (hs : s ∈ g.modules) :
    (∀ t, t ≠ s →
        [t ∈ g.downstream s,
          TransGen g.HasEdge s t,
          ∃ path ∈ g.paths.values.flatten, Leads path s t,
          ∃ r, g.impact.reach[s]? = some r ∧ t ∈ r.affected].TFAE)
      ∧ s ∉ g.downstream s
      ∧ (∃ r, g.impact.reach[s]? = some r ∧ (g.Affected s).encard = r.count)
      ∧ ((∃ h ∈ g.impact.high, h.module = s) ↔ 3 < (g.Affected s).encard) := by
  refine ⟨fun t hne => ?_, fun h => (mem_downstream.1 h).1 rfl,
    ⟨_, getElem?_impact_reach hs, encard_affected⟩, ?_⟩
  · have hreach : t ∈ g.Affected s ↔ TransGen g.HasEdge s t := and_iff_right hne
    tfae_have 1 ↔ 2 := mem_downstream_iff_affected.trans hreach
    tfae_have 3 ↔ 2 := exists_recorded_iff.trans hreach
    tfae_have 4 ↔ 2 := by
      rw [getElem?_impact_reach hs, ← hreach, ← mem_reachOf_affected]
      simp
    tfae_finish
  · rw [exists_mem_impact_high, encard_affected, and_iff_right hs]
    exact Nat.cast_lt.symm

/-- A module on a cycle, from which three edges in a row lead away to the end of
the graph. -/
def spreading : Graph :=
  let modules := ["a", "b", "c", "d", "e"].foldl (fun g id => g.addModule (.new id ⟨id⟩)) empty
  [("a", "b"), ("b", "a"), ("b", "c"), ("c", "d"), ("d", "e")].foldl
    (fun g e => g.addEdge e.1 e.2 .explicit) modules

/-- The first module of the example reaches the last one, by a recorded path,
and reaches too many to be without impact. -/
theorem affected_agree_spreading :
    "a" ∈ spreading.modules ∧ "e" ≠ "a" ∧ TransGen spreading.HasEdge "a" "e"
      ∧ (∃ path ∈ spreading.paths.values.flatten, Leads path "a" "e")
      ∧ "a" ∉ spreading.downstream "a"
      ∧ 3 < (spreading.Affected "a").encard := by
  have hmem : "a" ∈ spreading.modules := by decide
  have hne : "e" ≠ "a" := by decide
  obtain ⟨hagree, hself, -, hhigh⟩ := affected_agree hmem
  have hdown : "e" ∈ spreading.downstream "a" := by decide
  refine ⟨hmem, hne, ((hagree "e" hne).out 0 1).1 hdown, ((hagree "e" hne).out 0 2).1 hdown, hself,
    hhigh.1 ?_⟩
  decide

end Graph

end StackGraph
