import StackGraph.Proofs.Graph.Paths
/-!
# Pairs of modules and their entries

Paths are filed under a text, the ids of their two ends with an arrow between
them, and a module id is the name of a directory: it may hold an arrow itself.
Then the text no longer says where the first id ends, and the entry of one
pair of modules can hold the paths of another (`Graph.not_ownsEntry_arrowNames`).

What remains true is said exactly. A pair has its entry to itself unless some
other pair that is connected has the same key (`Graph.ownsEntry_iff`), and this
cannot happen as long as no id holds an arrow (`Graph.ownsEntry_of_arrowFree`),
since the first arrow of a key is then the one between the ids.
-/

namespace StackGraph

open Std Relation

namespace Graph

variable {g : Graph} {s s' t t' : String}

/-- **A pair of modules has its entry to itself**: what is recorded there leads
from the first module to the second, and nothing is recorded if the second is
not reached from the first. -/
structure OwnsEntry (g : Graph) (s t : String) : Prop where
  only : ∀ path ∈ g.recorded (pathKey s t), Leads path s t
  absent : ¬ TransGen g.HasEdge s t → g.paths[pathKey s t]? = none

/-- There is no entry without a path. -/
theorem getElem?_paths_eq_none {key : String} : g.paths[key]? = none ↔ g.recorded key = [] := by
  constructor
  · intro h
    rw [recorded, h]
    rfl
  · intro h
    rw [recorded_eq] at h
    have hnil : g.found.filter (keyOf · = key) = [] := by
      refine List.eq_nil_iff_forall_not_mem.2 fun path hpath => ?_
      have hmem : path ∈ sortBy compareByLength _ := mem_sortBy.2 hpath
      rw [h] at hmem
      exact List.not_mem_nil hmem
    rw [getElem?_paths, if_pos hnil]

/-- **When a pair has its entry to itself**: if no other pair that is connected
has the same key. -/
theorem ownsEntry_iff :
    g.OwnsEntry s t
      ↔ ∀ s' t', s' ≠ t' → TransGen g.HasEdge s' t' → pathKey s' t' = pathKey s t →
        s' = s ∧ t' = t := by
  constructor
  · intro h s' t' hne hreach hkey
    obtain ⟨path, hpath, hends⟩ := exists_isSimplePath hne hreach
    obtain ⟨hs, ht⟩ := h.only path (mem_recorded.2 ⟨hpath, s', t', hends, hkey.symm⟩)
    exact ⟨Option.some.inj (hends.1.symm.trans hs), Option.some.inj (hends.2.symm.trans ht)⟩
  · intro h
    -- whatever is recorded leads between a connected pair with this key
    have honly : ∀ path ∈ g.recorded (pathKey s t), Leads path s t ∧ TransGen g.HasEdge s t := by
      intro path hmem
      obtain ⟨hpath, s', t', hends, hkey⟩ := mem_recorded.1 hmem
      obtain ⟨hne, hreach⟩ := hpath.ne_and_transGen hends
      obtain ⟨rfl, rfl⟩ := h s' t' hne hreach hkey.symm
      exact ⟨hends, hreach⟩
    refine ⟨fun path hmem => (honly path hmem).1, fun hnot => ?_⟩
    rw [getElem?_paths_eq_none]
    exact List.eq_nil_iff_forall_not_mem.2 fun path hmem => hnot (honly path hmem).2

/-- **When all pairs have their entries to themselves**: if the key of a pair
that is connected is the key of no other pair of modules. -/
theorem forall_ownsEntry_iff :
    (∀ s ∈ g.modules, ∀ t ∈ g.modules, s ≠ t → g.OwnsEntry s t)
      ↔ ∀ s ∈ g.modules, ∀ t ∈ g.modules, s ≠ t →
        ∀ s' t', s' ≠ t' → TransGen g.HasEdge s' t' → s' ++ "->" ++ t' = s ++ "->" ++ t →
          s' = s ∧ t' = t := by
  simp only [ownsEntry_iff]
  rfl

/-! ## Ids without an arrow -/

/-- A text holds an arrow. -/
def HoldsArrow (id : String) : Prop := ['-', '>'] <:+: id.toList

/-- A text that is continued by the begin of an arrow and more is not continued
at all, unless it comes to hold an arrow that way. -/
theorem eq_nil_of_arrow_append {a b u v : List Char} (h : ¬ ['-', '>'] <:+: a ++ u)
    (heq : ['-', '>'] ++ b = u ++ (['-', '>'] ++ v)) : u = [] := by
  match u, heq with
  | [], _ => rfl
  | [c], heq =>
    -- the head of one arrow would be the tail of the other
    have htail := (List.cons.inj (List.cons.inj heq).2).1
    exact absurd htail (by decide)
  | c :: d :: u, heq =>
    obtain ⟨hc, hrest⟩ := List.cons.inj heq
    obtain ⟨hd, -⟩ := List.cons.inj hrest
    subst hc hd
    exact absurd ⟨a, u, by simp⟩ h

/-- Two texts without an arrow are the same if an arrow and more behind them
gives the same. -/
theorem append_arrow_inj {a b c d : List Char} (ha : ¬ ['-', '>'] <:+: a)
    (hc : ¬ ['-', '>'] <:+: c) (h : a ++ (['-', '>'] ++ b) = c ++ (['-', '>'] ++ d)) :
    a = c ∧ b = d := by
  rcases List.append_eq_append_iff.1 h with ⟨u, rfl, hrest⟩ | ⟨u, rfl, hrest⟩
  · obtain rfl := eq_nil_of_arrow_append hc hrest
    exact ⟨(List.append_nil a).symm, List.append_cancel_left hrest⟩
  · obtain rfl := eq_nil_of_arrow_append ha hrest
    exact ⟨List.append_nil c, (List.append_cancel_left hrest).symm⟩

/-- **Keys whose first ids hold no arrow can be taken apart.** -/
theorem pathKey_inj (hs : ¬ HoldsArrow s) (hs' : ¬ HoldsArrow s')
    (h : pathKey s t = pathKey s' t') : s = s' ∧ t = t' := by
  have hlist : s.toList ++ (['-', '>'] ++ t.toList) = s'.toList ++ (['-', '>'] ++ t'.toList) := by
    simpa [pathKey] using congrArg String.toList h
  obtain ⟨hfirst, hlast⟩ := append_arrow_inj hs hs' hlist
  exact ⟨String.toList_inj.1 hfirst, String.toList_inj.1 hlast⟩

/-- **Where no id holds an arrow every pair has its entry to itself.** -/
theorem ownsEntry_of_arrowFree (h : ∀ id ∈ g.modules, ¬ HoldsArrow id) (hs : s ∈ g.modules) :
    g.OwnsEntry s t := by
  rw [ownsEntry_iff]
  intro s' t' _ hreach hkey
  have hs' : s' ∈ g.modules := by
    obtain ⟨_, he, -⟩ := TransGen.head'_iff.1 hreach
    exact he.source_mem
  exact pathKey_inj (h s' hs') (h s hs) hkey

/-! ## An id with an arrow -/

/-- Four modules with two ways to put an arrow between two of them, and an edge
for one of these ways. -/
def arrowNames : Graph :=
  (["a", "a->b", "b->c", "c"].foldl (fun g id => g.addModule (.new id ⟨id⟩)) empty).addEdge
    "a" "b->c" .explicit

/-- **The entry of a pair can hold a path of another pair**, although the pair
itself is not connected. -/
theorem not_ownsEntry_arrowNames :
    "a->b" ∈ arrowNames.modules ∧ "c" ∈ arrowNames.modules ∧ "a->b" ≠ "c"
      ∧ ¬ TransGen arrowNames.HasEdge "a->b" "c"
      ∧ arrowNames.paths[pathKey "a->b" "c"]? = some [["a", "b->c"]]
      ∧ ¬ arrowNames.OwnsEntry "a->b" "c" := by
  have hreach : ¬ TransGen arrowNames.HasEdge "a->b" "c" := by
    intro h
    have hmem := mem_downstream.2 ⟨by decide, h⟩
    revert hmem
    decide
  have hentry : arrowNames.paths[pathKey "a->b" "c"]? = some [["a", "b->c"]] := by
    have hfound : arrowNames.found.filter (keyOf · = pathKey "a->b" "c") = [["a", "b->c"]] := by
      decide
    rw [getElem?_paths, hfound, if_neg (by decide)]
    exact congrArg some (List.mergeSort_singleton _)
  refine ⟨by decide, by decide, by decide, hreach, hentry, fun h => ?_⟩
  rw [h.absent hreach] at hentry
  cases hentry

end Graph

end StackGraph
