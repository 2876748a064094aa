import StackGraph.Export.Layout
import StackGraph.Proofs.Ordered
/-!
# Every module has a place in the drawing

The page draws an edge only between nodes that have a place. Places are given
row by row, and the rows are the layers of the report and one more for the
modules that stand in none of them. Nothing forces the layers of a report to
hold all its modules, so it is this last row that leaves no module out.
-/

namespace StackGraph.Layout

open Std

variable {r : Report} {id : String}

theorem map_fst_placeRow {y x : Nat} {row : List String} :
    (placeRow y x row).map Prod.fst = row := by
  induction row generalizing x with
  | nil => rfl
  | cons id row ih => rw [placeRow, List.map_cons, ih]

/-- The nodes that are placed are those of the rows, in order. -/
theorem map_fst_placeRows {width y : Nat} {rows : List (List String)} :
    (placeRows width y rows).map Prod.fst = rows.flatten := by
  induction rows generalizing y with
  | nil => rfl
  | cons row rows ih => rw [placeRows, List.map_append, map_fst_placeRow, ih, List.flatten_cons]

/-- A module is in a layer, or it is missing there and in the last row. -/
theorem mem_flatten_rows (h : id ∈ r.modules) : id ∈ (rows r).flatten := by
  unfold rows
  rw [List.flatten_append, List.mem_append]
  by_cases hlayer : id ∈ r.layers.flatten
  · exact .inl hlayer
  · have hmissing : id ∈ r.modules.keys.filter fun id => !r.layers.flatten.contains id := by
      rw [List.mem_filter]
      exact ⟨ExtTreeMap.mem_keys.2 h, by simpa using hlayer⟩
    rw [if_neg fun hempty => List.ne_nil_of_mem hmissing (List.isEmpty_iff.1 hempty)]
    exact .inr (by simpa using hmissing)

/-- **Every module of a report has a place.** -/
theorem exists_place (h : id ∈ r.modules) : ∃ p, (Layout.ofReport r).nodes[id]? = some p := by
  refine Option.isSome_iff_exists.1 (ExtTreeMap.mem_iff_isSome_getElem?.1 ?_)
  show id ∈ ExtTreeMap.ofList _ _
  rw [ExtTreeMap.mem_ofList, map_fst_placeRows, List.contains_iff_mem]
  exact mem_flatten_rows h

end StackGraph.Layout
