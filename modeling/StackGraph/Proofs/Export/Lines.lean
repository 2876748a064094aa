import Mathlib.Algebra.Order.BigOperators.Group.List
import Mathlib.Algebra.Order.Group.Nat
import StackGraph.Proofs.Directory
import StackGraph.Proofs.Graph.CycleEdges
import StackGraph.Text.Escaped
/-!
# The lines of a text

An export is written line by line, but what is written are characters: where a
line that is meant as one holds a line break, the text has further lines. This
module compares the two, the lines that are written (`Text.unlines`) and those
that the text has (`Text.lines`).

The text has the *rows* of each line that is written, which are what stands
between its line breaks, and so it has as many lines more as there are line
breaks inside of those that are written (`Text.length_lines_unlines`). The lines
are those that are written exactly if there are none
(`Text.lines_unlines_eq_iff`).

The exports write cycles as they are, so for them it matters which cycles of a
graph have a line break in them (`Graph.forall_breaks_text_iff`).
-/

namespace StackGraph

open Relation

namespace Text

/-- The rows of a text: what stands between its line breaks, and before the first
and behind the last one. -/
def rows (s : String) : List String := (splitOn (· == '\n') s.toList).map String.ofList

/-- **The lines of a text**: each of them ends with a line break, so that what
stands behind the last line break is not a line. -/
def lines (s : String) : List String := (rows s).dropLast

/-- How many line breaks a text has. -/
def breaks (s : String) : Nat := s.toList.count '\n'

/-! ## Pieces -/

section Pieces

variable {p : Char → Bool} {s t first : List Char} {rest : List (List Char)}

/-- There is one piece more than there are separators. -/
theorem length_splitOn : (splitOn p s).length = s.countP p + 1 := by
  induction s with
  | nil => rfl
  | cons c s ih =>
    obtain ⟨piece, pieces, hsplit⟩ := List.exists_cons_of_ne_nil (splitOn_ne_nil p s)
    rw [hsplit] at ih
    rw [splitOn, hsplit, List.countP_cons]
    cases p c with
    | true => exact congrArg (· + 1) ih
    | false => exact ih

/-- The first piece is what stands before the first separator. -/
theorem exists_splitOn_eq : ∃ pieces, splitOn p s = s.takeWhile (fun c => !p c) :: pieces := by
  induction s with
  | nil => exact ⟨[], rfl⟩
  | cons c s ih =>
    obtain ⟨pieces, hsplit⟩ := ih
    rw [splitOn, hsplit, List.takeWhile_cons]
    cases p c with
    | true => exact ⟨_, rfl⟩
    | false => exact ⟨_, rfl⟩

/-- What has no separator stands before the first piece. -/
theorem splitOn_append_left (h : ∀ c ∈ s, p c = false) (ht : splitOn p t = first :: rest) :
    splitOn p (s ++ t) = (s ++ first) :: rest := by
  induction s with
  | nil => exact ht
  | cons c s ih =>
    obtain ⟨hc, hs⟩ := List.forall_mem_cons.1 h
    rw [List.cons_append, splitOn, ih hs, hc]
    rfl

end Pieces

variable {s t l : String} {ls : List String}

theorem breaks_eq_zero : breaks s = 0 ↔ '\n' ∉ s.toList := List.count_eq_zero

theorem breaks_append : breaks (s ++ t) = breaks s + breaks t := by
  rw [breaks, String.toList_append, List.count_append, breaks, breaks]

/-! ## Rows -/

theorem rows_ne_nil : rows s ≠ [] := mt List.map_eq_nil_iff.1 (splitOn_ne_nil _ _)

theorem rows_of_notMem (h : '\n' ∉ s.toList) : rows s = [s] := by
  rw [rows, splitOn_of_not_mem h, List.map_singleton, String.ofList_toList]

theorem rows_append_break : rows (s ++ "\n" ++ t) = rows s ++ rows t := by
  rw [rows, String.toList_append, String.toList_append, List.append_assoc,
    show "\n".toList ++ t.toList = '\n' :: t.toList from rfl, splitOn_append_cons, List.map_append]
  rfl

theorem length_rows : (rows s).length = breaks s + 1 := by
  rw [rows, List.length_map, length_splitOn, breaks, List.count]

/-- What has no line break stands before the first row. -/
theorem rows_append_left {first : String} {rest : List String} (h : '\n' ∉ s.toList)
    (ht : rows t = first :: rest) : rows (s ++ t) = (s ++ first) :: rest := by
  obtain ⟨piece, pieces, hsplit, rfl, rfl⟩ := List.map_eq_cons_iff.1 ht
  have hs : ∀ c ∈ s.toList, (c == '\n') = false := fun c hc =>
    beq_false_of_ne fun heq => h (heq ▸ hc)
  rw [rows, String.toList_append, splitOn_append_left hs hsplit, List.map_cons,
    String.ofList_append, String.ofList_toList]

/-! ## Lines -/

theorem rows_unlines : rows (unlines ls) = ls.flatMap rows ++ [""] := by
  induction ls with
  | nil => rfl
  | cons l ls ih =>
    have hcons : unlines (l :: ls) = l ++ "\n" ++ unlines ls := by
      rw [unlines, List.map_cons, String.join_cons, unlines]
    rw [hcons, rows_append_break, ih, List.flatMap_cons, List.append_assoc]

/-- **The text of some lines has the rows of each of them** as its lines. -/
theorem lines_unlines : lines (unlines ls) = ls.flatMap rows := by
  rw [lines, rows_unlines, List.dropLast_concat]

theorem break_notMem_of_mem_rows (h : l ∈ rows s) : '\n' ∉ l.toList := by
  obtain ⟨piece, hpiece, rfl⟩ := List.mem_map.1 h
  rw [String.toList_ofList]
  exact not_mem_of_mem_splitOn hpiece

/-- **A line of a text has no line break.** -/
theorem break_notMem_of_mem_lines (h : l ∈ lines s) : '\n' ∉ l.toList :=
  break_notMem_of_mem_rows (List.dropLast_subset _ h)

/-- **Every line break inside a line adds a line.** -/
theorem length_lines_unlines :
    (lines (unlines ls)).length = ls.length + (ls.map breaks).sum := by
  rw [lines_unlines]
  induction ls with
  | nil => rfl
  | cons l ls ih =>
    rw [List.flatMap_cons, List.length_append, ih, length_rows, List.length_cons, List.map_cons,
      List.sum_cons]
    omega

theorem flatMap_rows_of_notMem (h : ∀ l ∈ ls, '\n' ∉ l.toList) : ls.flatMap rows = ls := by
  induction ls with
  | nil => rfl
  | cons l ls ih =>
    obtain ⟨hl, hls⟩ := List.forall_mem_cons.1 h
    rw [List.flatMap_cons, rows_of_notMem hl, ih hls, List.singleton_append]

theorem sum_breaks_eq_zero_iff : (ls.map breaks).sum = 0 ↔ ∀ l ∈ ls, '\n' ∉ l.toList := by
  rw [List.sum_eq_zero_iff, List.forall_mem_map]
  exact forall₂_congr fun _ _ => breaks_eq_zero

/-- Lines that are made of other things have the line breaks of these. -/
theorem map_breaks_of_forall₂ {α : Type} {f : α → Nat} {xs : List α}
    (h : List.Forall₂ (fun x l => breaks l = f x) xs ls) : ls.map breaks = xs.map f := by
  induction h with
  | nil => rfl
  | cons hx _ ih => rw [List.map_cons, List.map_cons, hx, ih]

/-- **A text has the lines that are written** exactly if none of them holds a
line break. -/
theorem lines_unlines_eq_iff : lines (unlines ls) = ls ↔ ∀ l ∈ ls, '\n' ∉ l.toList := by
  refine ⟨fun h => sum_breaks_eq_zero_iff.1 ?_, fun h => ?_⟩
  · have hlen := @length_lines_unlines ls
    rw [h] at hlen
    omega
  · rw [lines_unlines, flatMap_rows_of_notMem h]

/-! ## Texts that are put together -/

theorem notMem_append {c : Char} : c ∉ (s ++ t).toList ↔ c ∉ s.toList ∧ c ∉ t.toList := by
  rw [String.toList_append, List.mem_append, not_or]

/-- Texts with a separator between them are the first one and, for each other one,
the separator and that text. -/
theorem intercalate_cons {separator first : String} {others : List String} :
    separator.intercalate (first :: others)
      = first ++ String.join (others.map (separator ++ ·)) := by
  induction others generalizing first with
  | nil => rw [String.intercalate_singleton, List.map_nil, String.join_nil, String.append_empty]
  | cons next others ih =>
    rw [String.intercalate_cons_cons, ih, List.map_cons, String.join_cons, String.append_assoc,
      String.append_assoc]

/-- A character that does not separate names stands in one of them. -/
theorem mem_intercalate_iff {c : Char} {separator : String} {names : List String}
    (h : c ∉ separator.toList) :
    c ∈ (separator.intercalate names).toList ↔ ∃ name ∈ names, c ∈ name.toList := by
  rw [String.toList_intercalate]
  induction names with
  | nil => simp
  | cons name names ih =>
    cases names with
    | nil => simp
    | cons next names =>
      rw [List.map_cons, List.map_cons, List.intercalate_cons_cons, ← List.map_cons,
        List.mem_append, List.mem_append, or_iff_left h, ih, List.exists_mem_cons_iff (a := name)]

end Text

namespace Graph

variable {g : Graph}

/-- **The cycles of a graph can be written on one line each** exactly if no
module that reaches itself has a line break in its id. -/
theorem forall_breaks_text_iff :
    (∀ c ∈ g.cycles, Text.breaks c.text = 0)
      ↔ ∀ m, TransGen g.HasEdge m m → '\n' ∉ m.toList := by
  have htext : ∀ c : Cycle, '\n' ∈ c.text.toList ↔ ∃ name ∈ c.walk, '\n' ∈ name.toList :=
    fun c => Text.mem_intercalate_iff (by decide)
  constructor
  · intro h m hm hbreak
    obtain ⟨c, hc, hmem⟩ := exists_mem_members_iff.2 hm
    exact Text.breaks_eq_zero.1 (h c hc) ((htext c).2 ⟨m, (mem_walk_iff hc).2 hmem, hbreak⟩)
  · intro h c hc
    refine Text.breaks_eq_zero.2 fun hbreak => ?_
    obtain ⟨m, hmem, hm⟩ := (htext c).1 hbreak
    exact h m (exists_mem_members_iff.1 ⟨c, hc, (mem_walk_iff hc).1 hmem⟩) hm

end Graph

end StackGraph
