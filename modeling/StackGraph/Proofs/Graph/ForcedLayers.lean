import StackGraph.Proofs.Graph.Layers
/-!
# Modules that are forced into a layer

When every module that remains waits for another one, a round places the
smallest of them all the same. It is tempting to think that this can only break
an edge on a cycle. But to wait is not to lie on a cycle: a module that merely
sits downstream of one waits too, and if its id is the smallest it is placed
before the very cycle that it reads from (`Graph.not_rises_tail`).

What holds instead is stated of the rounds. `Graph.Remains` says what is left
before a round, read off the layers alone, and `Graph.IsForced` describes the
round in which nothing is free: everything that remains waits, the smallest is
taken, it makes a layer by itself, and some cycle that remains leads to it. An
edge fails to rise exactly if its target was placed in such a round before its
source (`Graph.rises_or_isForced`), so the edges into modules that no cycle
leads to all rise (`Graph.lt_of_forall_not_reaches`).
-/

namespace StackGraph

open Std Relation

namespace Graph

variable {g : Graph} {remaining : List String} {rounds i j : Nat} {a b m : String}

/-! ## What remains -/

/-- What remains before the round with a number. -/
def remainingAt (g : Graph) : List String → Nat → List String
  | remaining, 0 => remaining
  | remaining, j + 1 => g.remainingAt (g.remainder remaining) j

/-- Without modules there is nothing to place. -/
@[simp] theorem nextLayer_nil : g.nextLayer [] = [] := rfl

@[simp] theorem remainingAt_nil : g.remainingAt [] j = [] := by
  induction j with
  | zero => rfl
  | succ j ih => exact ih

/-- What remains later is part of what remained, in the same order. -/
theorem remainingAt_sublist : (g.remainingAt remaining j).Sublist remaining := by
  induction j generalizing remaining with
  | zero => exact List.Sublist.refl _
  | succ j ih => exact ih.trans List.filter_sublist

/-- **What the rounds do**: as long as something remains they place the next
layer of it. -/
theorem getElem?_layersOf (hrounds : remaining.length ≤ rounds) :
    (g.layersOf rounds remaining)[j]?
      = if g.remainingAt remaining j = [] then none
        else some (g.nextLayer (g.remainingAt remaining j)) := by
  induction rounds generalizing remaining j with
  | zero =>
    rw [List.length_eq_zero_iff.1 (Nat.le_zero.1 hrounds)]
    simp
  | succ rounds ih =>
    by_cases hne : remaining = []
    · simp [hne]
    · have hlt := length_remainder_lt (g := g) hne
      rw [layersOf_succ hne]
      cases j with
      | zero => rw [List.getElem?_cons_zero, remainingAt, if_neg hne]
      | succ j => rw [List.getElem?_cons_succ, remainingAt, ih (by omega)]

/-- **A layer is what its round places** of what remains. -/
theorem inLayer_layersOf_iff (hrounds : remaining.length ≤ rounds) :
    InLayer (g.layersOf rounds remaining) a j ↔ a ∈ g.nextLayer (g.remainingAt remaining j) := by
  rw [InLayer, getElem?_layersOf hrounds]
  split
  · rename_i hnil
    simp [hnil]
  · simp

/-- **What remains before a round is what this round or a later one places.** -/
theorem mem_remainingAt_iff (hrounds : remaining.length ≤ rounds) :
    a ∈ g.remainingAt remaining j ↔ ∃ i, j ≤ i ∧ InLayer (g.layersOf rounds remaining) a i := by
  induction j generalizing remaining rounds with
  | zero =>
    constructor
    · intro ha
      obtain ⟨i, hi⟩ := exists_inLayer hrounds ha
      exact ⟨i, Nat.zero_le i, hi⟩
    · rintro ⟨i, -, hi⟩
      exact mem_of_inLayer hi
  | succ j ih =>
    cases rounds with
    | zero =>
      rw [List.length_eq_zero_iff.1 (Nat.le_zero.1 hrounds)]
      simp
    | succ rounds =>
      by_cases hne : remaining = []
      · simp [hne]
      · have hlt := length_remainder_lt (g := g) hne
        rw [layersOf_succ hne, remainingAt, ih (show _ ≤ rounds by omega)]
        constructor
        · rintro ⟨i, hji, hi⟩
          exact ⟨i + 1, Nat.succ_le_succ hji, inLayer_cons_succ.2 hi⟩
        · rintro ⟨i, hji, hi⟩
          obtain ⟨i, rfl⟩ := Nat.exists_eq_add_of_le' (Nat.le_of_add_left_le hji)
          exact ⟨i, Nat.le_of_succ_le_succ hji, inLayer_cons_succ.1 hi⟩

/-- A module is placed in the layer with a number or in a later one. -/
def Remains (g : Graph) (j : Nat) (a : String) : Prop := ∃ i, j ≤ i ∧ InLayer g.layers a i

theorem mem_remainingAt_ids : a ∈ g.remainingAt g.ids j ↔ g.Remains j a :=
  mem_remainingAt_iff ExtTreeMap.length_keys.le

theorem inLayer_layers_iff : InLayer g.layers a j ↔ a ∈ g.nextLayer (g.remainingAt g.ids j) :=
  inLayer_layersOf_iff ExtTreeMap.length_keys.le

/-! ## Rounds in which nothing is free -/

/-- A module is placed in a round in which it has to wait, as all others do. -/
structure IsForced (g : Graph) (j : Nat) (b : String) : Prop where
  /-- The round places it, and nothing else. -/
  inLayer_iff : ∀ m, InLayer g.layers m j ↔ m = b
  /-- It is the smallest of what remains. -/
  le : ∀ m, g.Remains j m → b ≤ m
  /-- Everything that remains reads from something that remains. -/
  waits : ∀ m, g.Remains j m → ∃ u, g.Remains j u ∧ g.HasEdge u m
  /-- It lies on a cycle that remains, or downstream of one. -/
  behind : ∃ c, g.Remains j c ∧ TransGen g.HasEdge c c ∧ ReflTransGen g.HasEdge c b

/-- The first of what remains is the smallest. -/
theorem le_of_head?_remainingAt (hb : (g.remainingAt g.ids j).head? = some b)
    (hm : m ∈ g.remainingAt g.ids j) : b ≤ m := by
  have hsorted : (g.remainingAt g.ids j).Pairwise (compare · · = .lt) :=
    ExtTreeMap.ordered_keys.sublist remainingAt_sublist
  obtain ⟨rest, hrest⟩ := List.head?_eq_some_iff.1 hb
  rw [hrest] at hsorted hm
  rcases List.mem_cons.1 hm with rfl | hm
  · exact le_rfl
  · exact (compareName_eq_lt.1 ((List.pairwise_cons.1 hsorted).1 m hm)).le

/-- **A module that is placed while it waits is forced.** -/
theorem isForced_of_not_isFree (hb : InLayer g.layers b j)
    (hwait : ¬ g.isFree (g.remainingAt g.ids j) b) : g.IsForced j b := by
  rcases mem_nextLayer.1 (inLayer_layers_iff.1 hb) with ⟨-, hfree⟩ | ⟨hnone, hhead⟩
  · exact absurd hfree hwait
  · refine ⟨fun m => ?_, fun m hm => ?_, fun m hm => ?_, ?_⟩
    · rw [inLayer_layers_iff, mem_nextLayer, or_iff_right fun h => hnone m h.1 h.2,
        and_iff_right hnone, hhead]
      exact ⟨fun h => (Option.some.inj h).symm, fun h => congrArg some h.symm⟩
    · exact le_of_head?_remainingAt hhead (mem_remainingAt_ids.2 hm)
    · have hnot := hnone m (mem_remainingAt_ids.2 hm)
      rw [isFree_iff] at hnot
      push Not at hnot
      obtain ⟨u, he, hu⟩ := hnot
      exact ⟨u, mem_remainingAt_ids.1 hu, he⟩
    · obtain ⟨c, hc, hcycle, hreach⟩ := exists_cycle_behind hnone (List.mem_of_head? hhead)
      exact ⟨c, mem_remainingAt_ids.1 hc, hcycle, hreach⟩

/-- **The target of an edge that does not rise is forced.** -/
theorem isForced_of_le (he : g.HasEdge a b) (ha : InLayer g.layers a i)
    (hb : InLayer g.layers b j) (hji : j ≤ i) : g.IsForced j b := by
  -- the target is placed although its source remains
  have hsource : a ∈ g.remainingAt g.ids j := mem_remainingAt_ids.2 ⟨i, hji, ha⟩
  exact isForced_of_not_isFree hb fun hfree => isFree_iff.1 hfree a he hsource

/-- Its source is then placed strictly later. -/
theorem IsForced.lt (h : g.IsForced j b) (he : g.HasEdge a b) (ha : InLayer g.layers a i)
    (hji : j ≤ i) : j < i := by
  refine lt_of_le_of_ne' hji ?_
  rintro rfl
  exact he.ne ((h.inLayer_iff a).1 ha)

/-- A forced module is placed before one that it reads from. -/
theorem IsForced.exists_hasEdge (h : g.IsForced j b) :
    ∃ a i, g.HasEdge a b ∧ InLayer g.layers a i ∧ j < i := by
  have hb : InLayer g.layers b j := (h.inLayer_iff b).2 rfl
  obtain ⟨a, ⟨i, hji, ha⟩, he⟩ := h.waits b ⟨j, le_rfl, hb⟩
  exact ⟨a, i, he, ha, h.lt he ha hji⟩

/-- **An edge rises, or its target is forced**: every edge leads to a strictly
later layer, unless its target was taken in a round in which all that remained
had to wait. Such a round always breaks an edge into the module that it takes,
whether or not that edge lies on a cycle. -/
theorem rises_or_isForced (g : Graph) :
    (∀ a b, g.HasEdge a b → ∃ i j, InLayer g.layers a i ∧ InLayer g.layers b j
        ∧ (i < j ∨ j < i ∧ g.IsForced j b))
      ∧ ∀ j b, g.IsForced j b → ∃ a i, g.HasEdge a b ∧ InLayer g.layers a i ∧ j < i := by
  refine ⟨fun a b he => ?_, fun j b h => h.exists_hasEdge⟩
  obtain ⟨i, ha, -⟩ := existsUnique_inLayer he.source_mem
  obtain ⟨j, hb, -⟩ := existsUnique_inLayer he.target_mem
  refine ⟨i, j, ha, hb, (Nat.lt_or_ge i j).imp_right fun hji => ?_⟩
  have hforced := isForced_of_le he ha hb hji
  exact ⟨hforced.lt he ha hji, hforced⟩

/-- **Edges into modules that no cycle leads to rise.** -/
theorem lt_of_forall_not_reaches (he : g.HasEdge a b)
    (hclear : ∀ c, TransGen g.HasEdge c c → ¬ ReflTransGen g.HasEdge c b)
    (ha : InLayer g.layers a i) (hb : InLayer g.layers b j) : i < j := by
  by_contra hij
  obtain ⟨c, -, hc, hcb⟩ := (isForced_of_le he ha hb (Nat.not_lt.1 hij)).behind
  exact hclear c hc hcb

/-! ## Downstream of a cycle -/

/-- Two modules that read from each other, and a third with the smallest id
that reads from one of them. -/
def tail : Graph :=
  [("b", "c"), ("c", "b"), ("c", "a")].foldl (fun g e => g.addEdge e.1 e.2 .explicit)
    (["a", "b", "c"].foldl (fun g id => g.addModule (.new id ⟨id⟩)) empty)

/-- **An edge that lies on no cycle can fall**: the module downstream of the
cycle has the smallest id, so it is placed before the cycle. -/
theorem not_rises_tail :
    tail.HasEdge "c" "a" ∧ ¬ TransGen tail.HasEdge "a" "c"
      ∧ InLayer tail.layers "c" 2 ∧ InLayer tail.layers "a" 0 := by
  have hlayers : tail.layers = [["a"], ["b"], ["c"]] := by decide
  have hreach : ¬ TransGen tail.HasEdge "a" "c" := by
    intro h
    have hmem := mem_downstream.2 ⟨by decide, h⟩
    revert hmem
    decide
  rw [hlayers]
  exact ⟨by decide, hreach, ⟨["c"], rfl, by decide⟩, ["a"], rfl, by decide⟩

end Graph

end StackGraph
