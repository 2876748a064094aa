import Mathlib.Data.List.Pairwise
import Mathlib.Data.Rat.Cast.Order
import Mathlib.Order.CompletePartialOrder
import Mathlib.Order.Interval.Set.Basic
import Mathlib.Tactic.Ring
import StackGraph.Proofs.Export.Layout
/-!
# No two nodes overlap

A report may list its layers in any way: an id may stand in several layers or
twice in one, and it need not be a module. The drawing is sound all the same. As
the rows are placed, a row never leaves the width that is reserved for it, each
node begins behind the one before it, and each row begins below the one before
it. So whatever is placed earlier is either to the left or above
(`pairwise_placeRows`), and of an id that is placed several times only the last
place is kept, which is still one of these.

The rectangle of a node is taken with its border, as a set of points with
rational coordinates, so that nodes that only touch are not disjoint either.
-/

namespace StackGraph.Layout

open Std

/-- The points that a node covers, its border included. -/
def Placement.rect (p : Placement) : Set (ℚ × ℚ) :=
  Set.Icc ((p.x : ℚ), (p.y : ℚ)) ((p.x + p.width : ℚ), (p.y + nodeHeight : ℚ))

/-- The points of a drawing that are as far from each of its sides as a margin
asks for. -/
def inner (l : Layout) (distance : ℕ) : Set (ℚ × ℚ) :=
  Set.Icc ((distance : ℚ), (distance : ℚ)) ((l.width - distance : ℚ), (l.height - distance : ℚ))

variable {p q : Placement} {id : String} {row : List String} {rows : List (List String)}
variable {x y width : ℕ}

/-- Nodes one of which ends before the other begins are disjoint. -/
theorem Placement.disjoint_rect (h : p.x + p.width < q.x ∨ p.y + nodeHeight < q.y) :
    Disjoint p.rect q.rect := by
  refine Set.disjoint_left.2 fun point hp hq => ?_
  obtain ⟨-, hright, hbottom⟩ := hp
  obtain ⟨⟨hleft, htop⟩, -⟩ := hq
  dsimp only at hright hbottom hleft htop
  rcases h with h | h
  · have hlt : (p.x + p.width : ℚ) < q.x := by exact_mod_cast h
    exact (hleft.trans hright).not_gt hlt
  · have hlt : (p.y + nodeHeight : ℚ) < q.y := by exact_mod_cast h
    exact (htop.trans hbottom).not_gt hlt

/-! ## One row -/

theorem rowWidth_singleton : rowWidth [id] = nodeWidth id := by
  simp [rowWidth]

theorem rowWidth_cons_cons {next : String} :
    rowWidth (id :: next :: row) = nodeWidth id + nodeGap + rowWidth (next :: row) := by
  simp only [rowWidth, ← List.sum_eq_foldl, List.map_cons, List.sum_cons, List.length_cons,
    Nat.add_sub_cancel]
  ring

/-- **A node of a row** stands at its height within its width. -/
theorem mem_placeRow (h : (id, p) ∈ placeRow y x row) :
    p.y = y ∧ x ≤ p.x ∧ p.x + p.width ≤ x + rowWidth row := by
  induction row generalizing x with
  | nil => exact absurd h List.not_mem_nil
  | cons first row ih =>
    rw [placeRow] at h
    cases row with
    | nil =>
      obtain ⟨rfl, rfl⟩ := Prod.mk.inj (List.mem_singleton.1 h)
      exact ⟨rfl, le_rfl, by rw [rowWidth_singleton]⟩
    | cons next row =>
      rw [rowWidth_cons_cons]
      rcases List.mem_cons.1 h with h | h
      · obtain ⟨rfl, rfl⟩ := Prod.mk.inj h
        exact ⟨rfl, le_rfl, by dsimp only; omega⟩
      · obtain ⟨hy, hleft, hright⟩ := ih h
        exact ⟨hy, by omega, by omega⟩

/-- **In a row** each node ends before the next ones begin. -/
theorem pairwise_placeRow :
    (placeRow y x row).Pairwise fun a b => a.2.x + a.2.width < b.2.x := by
  induction row generalizing x with
  | nil => exact .nil
  | cons id row ih =>
    refine List.pairwise_cons.2 ⟨fun b hb => ?_, ih⟩
    have hleft := (mem_placeRow hb).2.1
    have hgap : 0 < nodeGap := by decide
    dsimp only
    omega

/-! ## All rows -/

/-- **A node of some rows** stands in one of them, which begins at the height of
its number and in the middle of the width. -/
theorem mem_placeRows (h : (id, p) ∈ placeRows width y rows) :
    ∃ i row, rows[i]? = some row
      ∧ (id, p) ∈ placeRow (y + i * layerGap) (margin + (width - rowWidth row) / 2) row := by
  induction rows generalizing y with
  | nil => exact absurd h List.not_mem_nil
  | cons row rows ih =>
    rcases List.mem_append.1 h with h | h
    · exact ⟨0, row, rfl, by simpa using h⟩
    · obtain ⟨i, row', hrow, hmem⟩ := ih h
      refine ⟨i + 1, row', hrow, ?_⟩
      rwa [show y + (i + 1) * layerGap = y + layerGap + i * layerGap by ring]

/-- **What is placed earlier** ends before what is placed later begins, to the
left of it or above it. -/
theorem pairwise_placeRows :
    (placeRows width y rows).Pairwise fun a b =>
      a.2.x + a.2.width < b.2.x ∨ a.2.y + nodeHeight < b.2.y := by
  induction rows generalizing y with
  | nil => exact .nil
  | cons row rows ih =>
    refine List.pairwise_append.2 ⟨pairwise_placeRow.imp .inl, ih, fun a ha b hb => .inr ?_⟩
    obtain ⟨i, row', -, hmem⟩ := mem_placeRows hb
    have hthis : a.2.y = y := (mem_placeRow ha).1
    have hnext : b.2.y = y + layerGap + i * layerGap := (mem_placeRow hmem).1
    have hgap : nodeHeight < layerGap := by decide
    omega

/-! ## The drawing -/

/-- No row is wider than the widest one. -/
theorem rowWidth_le_widest (h : row ∈ rows) : rowWidth row ≤ widest rows := by
  have hmem : rowWidth row ∈ rows.map rowWidth := List.mem_map_of_mem h
  obtain ⟨most, hmost⟩ := Option.isSome_iff_exists.1 (List.isSome_max?_of_mem hmem)
  rw [widest, hmost, Option.getD_some]
  exact (List.max?_eq_some_iff.1 hmost).2 _ hmem

variable {r : Report}

/-- A node of a drawing is one that was placed. -/
theorem mem_placeRows_of_getElem? (h : (ofReport r).nodes[id]? = some p) :
    (id, p) ∈ placeRows (widest (Layout.rows r)) margin (Layout.rows r) := by
  obtain ⟨before, after, hlist, -⟩ := getElem?_mapOfList_eq_some_iff.1 h
  rw [hlist]
  exact List.mem_append_right _ List.mem_cons_self

/-- **What is placed**: whatever stands in a layer, and all modules. -/
theorem mem_nodes_iff : id ∈ (ofReport r).nodes ↔ id ∈ r.layers.flatten ∨ id ∈ r.modules := by
  show id ∈ ExtTreeMap.ofList _ _ ↔ _
  rw [ExtTreeMap.mem_ofList, map_fst_placeRows, List.contains_iff_mem]
  refine ⟨fun h => ?_, fun h => ?_⟩
  · rw [Layout.rows, List.flatten_append, List.mem_append] at h
    -- the last row, if there is one, is made of modules
    refine h.imp_right fun h => ?_
    split at h
    · exact absurd h List.not_mem_nil
    · rw [List.flatten_singleton, List.mem_filter] at h
      exact ExtTreeMap.mem_keys.1 h.1
  · rcases h with h | h
    · rw [Layout.rows, List.flatten_append, List.mem_append]
      exact .inl h
    · exact mem_flatten_rows h

/-- **Every node keeps the margin** on all four sides. -/
theorem rect_subset_inner (h : (ofReport r).nodes[id]? = some p) :
    p.rect ⊆ (ofReport r).inner margin := by
  obtain ⟨i, row, hrow, hmem⟩ := mem_placeRows (mem_placeRows_of_getElem? h)
  obtain ⟨hy, hleft, hright⟩ := mem_placeRow hmem
  have hwide := rowWidth_le_widest (List.mem_of_getElem? hrow)
  obtain ⟨hi, -⟩ := List.getElem?_eq_some_iff.1 hrow
  have hwidth : (ofReport r).width = max (widest (Layout.rows r)) minNodeWidth + margin * 2 := rfl
  have hheight : (ofReport r).height
      = margin * 2 + (((Layout.rows r).length - 1) * layerGap + nodeHeight) := by
    have hrows : (Layout.rows r).isEmpty = false := by
      simpa using List.length_pos_iff.1 (Nat.zero_lt_of_lt hi)
    show margin * 2 + (if (Layout.rows r).isEmpty then _ else _) = _
    rw [hrows]
    rfl
  -- the row of a node is not the one below the last one
  have hlast : i * layerGap ≤ ((Layout.rows r).length - 1) * layerGap :=
    Nat.mul_le_mul_right _ (Nat.le_sub_one_of_lt hi)
  have hx : margin ≤ p.x ∧ p.x + p.width + margin ≤ (ofReport r).width := by omega
  have hy : margin ≤ p.y ∧ p.y + nodeHeight + margin ≤ (ofReport r).height := by omega
  refine Set.Icc_subset_Icc (Prod.mk_le_mk.2 ⟨?_, ?_⟩) (Prod.mk_le_mk.2 ⟨?_, ?_⟩)
  · exact_mod_cast hx.1
  · exact_mod_cast hy.1
  · exact le_sub_iff_add_le.2 (by exact_mod_cast hx.2)
  · exact le_sub_iff_add_le.2 (by exact_mod_cast hy.2)

/-- **The drawing of a report is sound**, whatever its layers are. It places what
stands in a layer and all modules, the nodes of different ids have no point in
common, and every node keeps the margin on all four sides. -/
theorem nodes_separate (r : Report) :
    (∀ id, id ∈ (ofReport r).nodes ↔ id ∈ r.layers.flatten ∨ id ∈ r.modules)
      ∧ (∀ (id id' : String) (p p' : Placement), (ofReport r).nodes[id]? = some p →
        (ofReport r).nodes[id']? = some p' → id ≠ id' → Disjoint p.rect p'.rect)
      ∧ ∀ (id : String) (p : Placement), (ofReport r).nodes[id]? = some p →
        p.rect ⊆ (ofReport r).inner margin := by
  refine ⟨fun _ => mem_nodes_iff, fun id id' p p' hp hp' hne => ?_, fun _ _ => rect_subset_inner⟩
  have hsymm : Std.Symm fun a b : String × Placement => Disjoint a.2.rect b.2.rect :=
    ⟨fun _ _ h => h.symm⟩
  have hpairwise := (@pairwise_placeRows (Layout.rows r) margin (widest (Layout.rows r))).imp
    Placement.disjoint_rect
  have hdisjoint := hpairwise.forall (mem_placeRows_of_getElem? hp) (mem_placeRows_of_getElem? hp')
    fun heq => hne (Prod.mk.inj heq).1
  exact hdisjoint

end StackGraph.Layout
