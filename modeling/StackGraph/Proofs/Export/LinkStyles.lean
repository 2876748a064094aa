import StackGraph.Proofs.Export.MermaidOutline
/-!
# The links that a Mermaid text styles

A Mermaid text says of a link that it lies on a cycle in a line of its own, far
behind the link, and names it by its number. The number counts the links that are
written, so an edge that is left out must not be counted; it is left out if an end
of it is no module of the report, which only happens in a report that was not made
of a graph.

The lines that are written have the right numbers in every report. The text can
have further lines of that kind, though: ids and cycles may hold line breaks, which
are written as they are, and what stands behind a line break is read as a line.
`Mermaid.linkStyles` says exactly which links the text styles, those on a cycle and
those that a cycle or an id styles behind a line break. A quotation mark in an id
makes no difference here, since neither its entity nor the end of the label can be
taken for a part of the keyword (`Mermaid.prefix_label_iff`).
-/

namespace StackGraph

open Std

namespace Mermaid

variable {i : Nat} {s t row written : List Char} {front l x : String} {r : Report}

/-- **A text styles a link behind a line break**: one of its rows but the first
does. -/
def StylesBehindBreak (i : Nat) (s : String) : Prop := ∃ row ∈ (Text.rows s).tail, StylesLink i row

/-! ## Rows -/

theorem notMem_styleHead {c : Char} (hword : c ∉ "    linkStyle ".toList)
    (hdigit : c.isDigit = false) (hblank : c ∉ " ".toList) : c ∉ (styleHead i).toList :=
  Text.notMem_append.2 ⟨Text.notMem_append.2 ⟨hword, notMem_toString hdigit⟩, hblank⟩

/-- A text styles a link itself if its first row does. -/
theorem exists_mem_rows_iff :
    (∃ row ∈ Text.rows x, StylesLink i row) ↔ StylesLink i x ∨ StylesBehindBreak i x := by
  obtain ⟨pieces, hsplit⟩ := @Text.exists_splitOn_eq (· == '\n') x.toList
  rw [StylesBehindBreak, Text.rows, hsplit, List.map_cons, List.tail_cons,
    List.exists_mem_cons_iff]
  refine or_congr_left ?_
  rw [StylesLink, StylesLink, String.toList_ofList]
  refine ⟨fun h => h.trans (List.takeWhile_prefix _), ?_⟩
  rintro ⟨rest, hrest⟩
  have hbreak : '\n' ∉ (styleHead i).toList := notMem_styleHead (by decide) (by decide) (by decide)
  have hplain : ∀ c ∈ (styleHead i).toList, (!(c == '\n')) = true := fun c hc => by
    have hne : c ≠ '\n' := fun h => hbreak (h ▸ hc)
    simpa using hne
  rw [← hrest, List.takeWhile_append_of_pos hplain]
  exact List.prefix_append _ _

theorem not_stylesBehindBreak (h : '\n' ∉ x.toList) : ¬ StylesBehindBreak i x := by
  rintro ⟨row, hrow, -⟩
  rw [Text.rows_of_notMem h] at hrow
  cases hrow

/-- What has no line break does not matter before a text. -/
theorem stylesBehindBreak_append_left (h : '\n' ∉ front.toList) :
    StylesBehindBreak i (front ++ x) ↔ StylesBehindBreak i x := by
  obtain ⟨first, rest, hrows⟩ := List.exists_cons_of_ne_nil (@Text.rows_ne_nil x)
  rw [StylesBehindBreak, Text.rows_append_left h hrows, StylesBehindBreak, hrows]
  rfl

/-! ## Labels -/

theorem break_notMem_mermaidChar {c : Char} (h : c ≠ '\n') : '\n' ∉ Text.mermaidChar c := by
  by_cases hquote : c = '"'
  · subst hquote
    decide
  · rw [mermaidChar_of_ne hquote, List.mem_singleton]
    exact Ne.symm h

/-- The rows of a label are those of the id, written as in a label, and behind the
last one the label ends. -/
theorem forall₂_splitOn_label :
    List.Forall₂ (fun written row => ∃ closing ∈ [[], ['"', ']']],
        written = row.flatMap Text.mermaidChar ++ closing)
      (Text.splitOn (· == '\n') (s.flatMap Text.mermaidChar ++ ['"', ']']))
      (Text.splitOn (· == '\n') s) := by
  induction s with
  | nil => exact .cons ⟨['"', ']'], by decide, rfl⟩ .nil
  | cons c s ih =>
    rw [List.flatMap_cons, List.append_assoc]
    by_cases hc : c = '\n'
    · subst hc
      exact .cons ⟨[], by decide, rfl⟩ ih
    · obtain ⟨row, rows, hrows⟩ := List.exists_cons_of_ne_nil (Text.splitOn_ne_nil (· == '\n') s)
      rw [hrows] at ih
      obtain ⟨written, others, ⟨closing, hclosing, rfl⟩, hothers, hsplit⟩ :=
        List.forall₂_cons_right_iff.1 ih
      have hplain : ∀ d ∈ Text.mermaidChar c, (d == '\n') = false := fun d hd =>
        beq_false_of_ne fun h => break_notMem_mermaidChar hc (h ▸ hd)
      have hrow : Text.splitOn (· == '\n') (c :: s) = (c :: row) :: rows :=
        Text.splitOn_append_left (s := [c]) (by simpa using hc) hrows
      rw [Text.splitOn_append_left hplain hsplit, hrow]
      refine .cons ⟨closing, hclosing, ?_⟩ hothers
      rw [List.flatMap_cons, List.append_assoc]

/-- Neither the entities nor the end of a label can be taken for a text without
their characters. -/
theorem prefix_label_iff {closing : List Char} (hmark : '#' ∉ t) (hquote : '"' ∉ t)
    (hclosing : closing ∈ [[], ['"', ']']]) :
    t <+: row.flatMap Text.mermaidChar ++ closing ↔ t <+: row := by
  constructor
  · intro h
    refine prefix_of_prefix_flatMap hmark ?_
    rcases List.prefix_or_prefix_of_prefix h (List.prefix_append _ closing) with h' | ⟨rest, rfl⟩
    · exact h'
    · have hrest : rest <+: closing := (List.prefix_append_right_inj _).1 h
      cases rest with
      | nil => exact ⟨[], by rw [List.append_nil, List.append_nil]⟩
      | cons c rest =>
        have hc : c = '"' := by
          rcases List.mem_pair.1 hclosing with rfl | rfl
          · cases List.prefix_nil.1 hrest
          · exact (List.cons_prefix_cons.1 hrest).1
        exact absurd (List.mem_append_right _ (hc ▸ List.mem_cons_self)) hquote
  · rintro ⟨rest, rfl⟩
    have ht : t.flatMap Text.mermaidChar = t := by
      have hchars : t.flatMap Text.mermaidChar = t.flatMap fun c => [c] :=
        List.flatMap_congr fun c hc => mermaidChar_of_ne fun h => hquote (h ▸ hc)
      rw [hchars, List.flatMap_singleton']
    rw [List.flatMap_append, ht, List.append_assoc]
    exact List.prefix_append _ _

/-- **A label styles a link behind a line break** exactly if its id does. -/
theorem stylesBehindBreak_label_iff :
    StylesBehindBreak i (Text.mermaidEscape x ++ "\"]") ↔ StylesBehindBreak i x := by
  have hlabel : (Text.mermaidEscape x ++ "\"]").toList
      = x.toList.flatMap Text.mermaidChar ++ ['"', ']'] := by
    rw [String.toList_append, Text.mermaidEscape, Text.escape, String.toList_ofList]
    rfl
  have hrows : List.Forall₂ (fun written row => StylesLink i row ↔ StylesLink i written)
      (Text.rows (Text.mermaidEscape x ++ "\"]")) (Text.rows x) := by
    rw [Text.rows, Text.rows, hlabel, List.forall₂_map_left_iff, List.forall₂_map_right_iff]
    refine forall₂_splitOn_label.imp fun written row h => ?_
    obtain ⟨closing, hclosing, rfl⟩ := h
    rw [StylesLink, StylesLink, String.toList_ofList, String.toList_ofList]
    refine (prefix_label_iff ?_ ?_ hclosing).symm
    · exact notMem_styleHead (by decide) (by decide) (by decide)
    · exact notMem_styleHead (by decide) (by decide) (by decide)
  have htails := List.forall₂_drop 1 hrows
  rw [List.drop_one, List.drop_one] at htails
  exact (exists_mem_iff_of_forall₂ htails).symm

theorem stylesBehindBreak_nodeLine_iff {index : Nat} :
    StylesBehindBreak i (nodeLine index x) ↔ StylesBehindBreak i x := by
  have hfront : '\n' ∉ ("    " ++ nodeName index ++ "[\"").toList :=
    Text.notMem_append.2 ⟨Text.notMem_append.2 ⟨by decide, break_notMem_nodeName⟩, by decide⟩
  rw [nodeLine, String.append_assoc, stylesBehindBreak_append_left hfront,
    stylesBehindBreak_label_iff]

/-! ## The text -/

/-- **Only comments and labels style links behind a line break**, and only where
their cycles and ids do. -/
theorem exists_stylesBehindBreak_iff :
    (∃ l ∈ lines r, StylesBehindBreak i l)
      ↔ (∃ c ∈ r.cycles, StylesBehindBreak i c.text)
        ∨ ∃ id ∈ r.modules, StylesBehindBreak i id := by
  constructor
  · rintro ⟨l, h, hl⟩
    have hbreak : '\n' ∈ l.toList := not_not.1 fun h => not_stylesBehindBreak h hl
    rcases comment_or_nodeLine_of_break_mem h hbreak with ⟨c, hc, rfl⟩ | ⟨id, hid, index, rfl⟩
    · exact .inl ⟨c, hc, (stylesBehindBreak_append_left (by decide)).1 hl⟩
    · exact .inr ⟨id, hid, stylesBehindBreak_nodeLine_iff.1 hl⟩
  · rintro (⟨c, hc, h⟩ | ⟨id, hid, h⟩)
    · exact ⟨comment c, comment_mem_lines hc, (stylesBehindBreak_append_left (by decide)).2 h⟩
    · obtain ⟨index, hindex⟩ := exists_nodeLine_mem_lines hid
      exact ⟨nodeLine index id, hindex, stylesBehindBreak_nodeLine_iff.2 h⟩

/-- **The links that are styled.** The links of a report are the edges whose ends
are both modules, in their order, and among the lines that are written there is one
that styles the link with a number exactly if that link is on a cycle. The text has
such a line besides exactly if a cycle or an id has one behind a line break. -/
theorem linkStyles (r : Report) :
    List.Forall₂ (States r.modules.keys) (drawn r) (linkTexts r)
      ∧ (∀ i, (∃ l ∈ lines r, StylesLink i l)
        ↔ ∃ e, (drawn r)[i]? = some e ∧ (e.source, e.target) ∈ r.cycleEdges)
      ∧ ∀ i, (∃ l ∈ Text.lines (render r), StylesLink i l)
        ↔ (∃ e, (drawn r)[i]? = some e ∧ (e.source, e.target) ∈ r.cycleEdges)
          ∨ (∃ c ∈ r.cycles, StylesBehindBreak i c.text)
          ∨ ∃ id ∈ r.modules, StylesBehindBreak i id := by
  have hlinks := forall₂_drawn r
  have hwritten : ∀ i, (∃ l ∈ lines r, StylesLink i l)
      ↔ ∃ e, (drawn r)[i]? = some e ∧ (e.source, e.target) ∈ r.cycleEdges := fun i =>
    exists_stylesLink_iff.trans <| mem_highlighted.trans <|
      exists_getElem?_iff (hlinks.imp fun _ _ hel => hel.2) i
  refine ⟨?_, hwritten, fun i => ?_⟩
  · rw [linkTexts, List.map_map, List.forall₂_map_right_iff]
    exact hlinks.imp fun _ _ hel => hel.1
  · rw [render, Text.lines_unlines]
    calc (∃ row ∈ (lines r).flatMap Text.rows, StylesLink i row)
        ↔ ∃ l ∈ lines r, ∃ row ∈ Text.rows l, StylesLink i row := by
          simp only [List.mem_flatMap, ← exists_and_right, ← exists_and_left, and_assoc]
          exact exists_comm
      _ ↔ ∃ l ∈ lines r, StylesLink i l ∨ StylesBehindBreak i l :=
          exists_congr fun l => and_congr_right fun _ => exists_mem_rows_iff
      _ ↔ (∃ l ∈ lines r, StylesLink i l) ∨ ∃ l ∈ lines r, StylesBehindBreak i l := by
          simp only [and_or_left, exists_or]
      _ ↔ _ := or_congr (hwritten i) exists_stylesBehindBreak_iff

end Mermaid

namespace Graph

/-- Two modules that need each other, one of them with a line in its id that styles
a link. -/
def styledName : Graph :=
  let id := "a\n    linkStyle 2 stroke:red"
  let modules := [id, "b"].foldl (fun g id => g.addModule (.new id ⟨id⟩)) empty
  (modules.addEdge id "b" .explicit).addEdge "b" id .explicit

/-- **A text can style a link that it does not have.** -/
theorem stylesLink_styledName :
    (Mermaid.drawn (styledName.report ⟨"."⟩ none [])).length = 2
      ∧ ∃ l ∈ Text.lines (Mermaid.render (styledName.report ⟨"."⟩ none [])),
        Mermaid.StylesLink 2 l := by
  have hcycle : ⟨["a\n    linkStyle 2 stroke:red", "b", "a\n    linkStyle 2 stroke:red"]⟩
      ∈ styledName.cycles := by decide +kernel
  refine ⟨by rw [drawn_report]; decide, "    linkStyle 2 stroke:red", ?_, by decide⟩
  rw [Mermaid.render, Text.lines_unlines, List.mem_flatMap]
  exact ⟨_, Mermaid.comment_mem_lines hcycle, by decide⟩

end Graph

end StackGraph
