import StackGraph.Proofs.Digits
import StackGraph.Proofs.Export.EdgeStatements
import StackGraph.Proofs.Export.Lines
import StackGraph.Proofs.Export.Quoting
/-!
# The outline of a Mermaid text

The exporter writes a comment per cycle, a node per module, a link per edge and
then the lines that style some of them. Nodes are named by their numbers, so ids
stand in two places only, in the labels of the nodes and in the comments. This
module says what can go wrong there.

A label ends at the first quotation mark, and none is written inside of one
(`Mermaid.quote_notMem_mermaidEscape`). Nothing else is escaped. A line break in an
id breaks the line of its node and that of each comment that mentions it, and these
are the only lines that can break (`Mermaid.forall_break_notMem_lines_iff`). And an
id may hold the very entity that a quotation mark is written as; then it has the
label of another id, and is not read back. `Graph.mermaid_lines` says which graphs
are safe from either.
-/

namespace StackGraph

open Std Relation

namespace Mermaid

/-! ## Outlines -/

/-- The comment about a cycle. -/
def comment (c : Cycle) : String := "    %% cycle: " ++ c.text

/-- The line of a node with a label. -/
def labelled (label : String) (index : Nat) : String :=
  "    " ++ nodeName index ++ "[\"" ++ label ++ "\"]"

/-- **A line styles** links or nodes if its first word says so. -/
def IsStyling (line : String) : Prop :=
  ∃ word ∈ ["    linkStyle ", "    classDef ", "    class "], word.toList <+: line.toList

/-- **What the lines of a Mermaid text are meant to be**: the header, a comment
per cycle, a node per module, a link per edge, and then only lines that style
them. No label holds a quotation mark, so each ends where its node ends. -/
def IsOutline (ids : List String) (cycles : List Cycle) (edges : List Edge)
    (labels ls : List String) : Prop :=
  ∃ links styles,
    ls = ["graph TD"] ++ cycles.map comment
        ++ labels.zipIdx.map (fun (label, index) => labelled label index) ++ links ++ styles
      ∧ labels.length = ids.length
      ∧ (∀ label ∈ labels, '"' ∉ label.toList)
      ∧ List.Forall₂ (fun e link => States ids e (link ++ "\n")) edges links
      ∧ ∀ l ∈ styles, IsStyling l

theorem IsOutline.comment_mem {ids labels ls : List String} {cycles : List Cycle}
    {edges : List Edge} {c : Cycle} (h : IsOutline ids cycles edges labels ls) (hc : c ∈ cycles) :
    comment c ∈ ls := by
  obtain ⟨links, styles, rfl, -⟩ := h
  simp only [List.append_assoc, List.mem_append]
  exact .inr (.inl (List.mem_map_of_mem hc))

/-- The labels of the modules. -/
def labels (r : Report) : List String := r.modules.keys.map Text.mermaidEscape

variable {c : Char} {id name style : String} {i : Nat} {l : String} {r : Report}
variable {indices : List Nat}

theorem quote_notMem_mermaidEscape : '"' ∉ (Text.mermaidEscape id).toList := by
  rw [Text.mermaidEscape, Text.escape, String.toList_ofList, List.mem_flatMap]
  rintro ⟨c, -, hc⟩
  by_cases h : c = '"'
  · subst h
    exact absurd hc (by decide)
  · rw [mermaidChar_of_ne h, List.mem_singleton] at hc
    exact h hc.symm

/-- A character that is not written for a quotation mark stands in the id. -/
theorem mem_mermaidEscape_iff (h : c ∉ '"' :: entity) :
    c ∈ (Text.mermaidEscape id).toList ↔ c ∈ id.toList := by
  obtain ⟨hquote, hentity⟩ := not_or.1 (List.mem_cons.not.1 h)
  rw [Text.mermaidEscape, Text.escape, String.toList_ofList, List.mem_flatMap]
  constructor
  · rintro ⟨d, hd, hc⟩
    by_cases hdq : d = '"'
    · subst hdq
      exact absurd hc hentity
    · rw [mermaidChar_of_ne hdq, List.mem_singleton] at hc
      exact hc ▸ hd
  · intro hc
    exact ⟨c, hc, by rw [mermaidChar_of_ne hquote]; exact List.mem_singleton_self c⟩

theorem isStyling_linkStyle : IsStyling (linkStyle i) :=
  ⟨_, by decide, (Text.begins_append _ _).trans (Text.begins_append _ _)⟩

theorem isStyling_of_mem_classLines (h : l ∈ classLines name style indices) : IsStyling l := by
  unfold classLines at h
  split at h
  · cases h
  · have hbegins := Text.begins_append
    rcases List.mem_pair.1 h with rfl | rfl
    · exact ⟨_, by decide, ((hbegins _ _).trans (hbegins _ _)).trans (hbegins _ _)⟩
    · exact ⟨_, by decide, ((hbegins _ _).trans (hbegins _ _)).trans (hbegins _ _)⟩

theorem isOutline_lines (r : Report) :
    IsOutline r.modules.keys r.cycles (drawn r) (labels r) (lines r) := by
  refine ⟨(links r).map Link.line, (highlighted (links r)).map linkStyle ++
    classLines "stub" "stroke-dasharray: 5 5,color:#666" (stubs r) ++
    classLines "cycle" "stroke:#d32f2f,stroke-width:2px" (onCycle r), ?_, ?_, ?_, ?_, ?_⟩
  · rw [labels, List.zipIdx_map, List.map_map]
    simp only [lines, List.append_assoc]
    rfl
  · exact List.length_map _
  · exact List.forall_mem_map.2 fun _ _ => quote_notMem_mermaidEscape
  · rw [List.forall₂_map_right_iff]
    exact (forall₂_drawn r).imp fun _ _ hel => hel.1
  · rw [List.forall_mem_append, List.forall_mem_append, List.forall_mem_map]
    exact ⟨⟨fun _ _ => isStyling_linkStyle, fun _ => isStyling_of_mem_classLines⟩,
      fun _ => isStyling_of_mem_classLines⟩

/-! ## Line breaks -/

theorem notMem_toString (h : c.isDigit = false) : c ∉ (toString i).toList := by
  intro hc
  rw [show (toString i).toList = Nat.toDigits 10 i from Nat.toList_repr] at hc
  rw [Text.isDigit_of_mem_toDigits hc] at h
  cases h

theorem break_notMem_nodeName : '\n' ∉ (nodeName i).toList :=
  Text.notMem_append.2 ⟨by decide, notMem_toString (by decide)⟩

theorem break_notMem_link {l : Link} : '\n' ∉ l.line.toList := by
  have harrow : '\n' ∉ (arrow l.kind).toList := by cases l.kind <;> decide
  have hblank : '\n' ∉ " ".toList := by decide
  have hindent : '\n' ∉ "    ".toList := by decide
  simp only [Link.line, Text.notMem_append, break_notMem_nodeName, harrow, hblank, hindent,
    not_false_eq_true, and_self]

theorem notMem_linkStyle (hfront : c ∉ "    linkStyle ".toList) (hdigit : c.isDigit = false)
    (hback : c ∉ " stroke:#d32f2f,stroke-width:3px".toList) : c ∉ (linkStyle i).toList :=
  Text.notMem_append.2 ⟨Text.notMem_append.2 ⟨hfront, notMem_toString hdigit⟩, hback⟩

theorem break_notMem_of_mem_classLines (hname : '\n' ∉ name.toList) (hstyle : '\n' ∉ style.toList)
    (h : l ∈ classLines name style indices) : '\n' ∉ l.toList := by
  have hnodes : '\n' ∉ (",".intercalate (indices.map nodeName)).toList := by
    rw [Text.mem_intercalate_iff (by decide), not_exists]
    rintro node ⟨hnode, hbreak⟩
    obtain ⟨i, -, rfl⟩ := List.mem_map.1 hnode
    exact break_notMem_nodeName hbreak
  unfold classLines at h
  split at h
  · cases h
  · rcases List.mem_pair.1 h with rfl | rfl
    · simp only [Text.notMem_append, hname, hstyle]
      decide
    · simp only [Text.notMem_append, hname, hnodes]
      decide

theorem break_notMem_nodeLine_iff : '\n' ∉ (nodeLine i id).toList ↔ '\n' ∉ id.toList := by
  have hescape := @mem_mermaidEscape_iff '\n' id (by decide)
  have hindent : '\n' ∉ "    ".toList := by decide
  have hopen : '\n' ∉ "[\"".toList := by decide
  have hclose : '\n' ∉ "\"]".toList := by decide
  simp only [nodeLine, Text.notMem_append, break_notMem_nodeName, hescape, hindent, hopen, hclose,
    not_false_eq_true, true_and, and_true]

theorem break_notMem_comment_iff {c : Cycle} :
    '\n' ∉ (comment c).toList ↔ Text.breaks c.text = 0 := by
  rw [Text.breaks_eq_zero, comment, Text.notMem_append]
  exact and_iff_right (by decide)

/-- **Only comments and the lines of nodes can hold line breaks.** -/
theorem comment_or_nodeLine_of_break_mem (h : l ∈ lines r) (hbreak : '\n' ∈ l.toList) :
    (∃ c ∈ r.cycles, l = comment c) ∨ ∃ id ∈ r.modules, ∃ index, l = nodeLine index id := by
  simp only [lines, List.mem_append] at h
  rcases h with (((((hhead | hcomment) | hnode) | hlink) | hstyle) | hstub) | hcycle
  · obtain rfl := List.mem_singleton.1 hhead
    exact absurd hbreak (by decide)
  · obtain ⟨c, hc, rfl⟩ := List.mem_map.1 hcomment
    exact .inl ⟨c, hc, rfl⟩
  · obtain ⟨⟨id, index⟩, hid, rfl⟩ := List.mem_map.1 hnode
    exact .inr ⟨id, ExtTreeMap.mem_keys.1 (List.fst_mem_of_mem_zipIdx hid), index, rfl⟩
  · obtain ⟨link, -, rfl⟩ := List.mem_map.1 hlink
    exact absurd hbreak break_notMem_link
  · obtain ⟨index, -, rfl⟩ := List.mem_map.1 hstyle
    exact absurd hbreak (notMem_linkStyle (by decide) (by decide) (by decide))
  · exact absurd hbreak (break_notMem_of_mem_classLines (by decide) (by decide) hstub)
  · exact absurd hbreak (break_notMem_of_mem_classLines (by decide) (by decide) hcycle)

theorem comment_mem_lines {c : Cycle} (h : c ∈ r.cycles) : comment c ∈ lines r :=
  (isOutline_lines r).comment_mem h

theorem exists_nodeLine_mem_lines (h : id ∈ r.modules) : ∃ index, nodeLine index id ∈ lines r := by
  obtain ⟨index, -, hindex⟩ := exists_idxOf? (ExtTreeMap.mem_keys.2 h)
  have hnode : nodeLine index id
      ∈ r.modules.keys.zipIdx.map fun (id, index) => nodeLine index id :=
    List.mem_map.2 ⟨(id, index), List.mem_zipIdx_iff_getElem?.2 hindex, rfl⟩
  refine ⟨index, ?_⟩
  simp only [lines, List.mem_append, hnode, true_or, or_true]

/-- **No line holds a line break** exactly if no cycle and no id does. -/
theorem forall_break_notMem_lines_iff :
    (∀ l ∈ lines r, '\n' ∉ l.toList)
      ↔ (∀ c ∈ r.cycles, Text.breaks c.text = 0) ∧ ∀ id ∈ r.modules, '\n' ∉ id.toList := by
  constructor
  · intro h
    refine ⟨fun c hc => break_notMem_comment_iff.1 (h _ (comment_mem_lines hc)), fun id hid => ?_⟩
    obtain ⟨index, hindex⟩ := exists_nodeLine_mem_lines hid
    exact break_notMem_nodeLine_iff.1 (h _ hindex)
  · rintro ⟨hcycles, hids⟩ l hl hbreak
    rcases comment_or_nodeLine_of_break_mem hl hbreak with ⟨c, hc, rfl⟩ | ⟨id, hid, index, rfl⟩
    · exact break_notMem_comment_iff.2 (hcycles c hc) hbreak
    · exact break_notMem_nodeLine_iff.2 (hids id hid) hbreak

end Mermaid

namespace Graph

variable (g : Graph) (root : Path) (time : Option Timestamp) (ds : List Diagnostic)

/-- **What lines the Mermaid text of a graph has, and what its labels say.** The
exporter writes the outline, and the lines of the text are those of the outline
exactly if no id holds a line break. An id is read back from its label exactly if
it does not hold the entity for a quotation mark, and two ids have one label
exactly if they are the same once their entities are read. -/
theorem mermaid_lines :
    Mermaid.IsOutline g.ids g.cycles g.edges (g.ids.map Text.mermaidEscape)
        (Mermaid.lines (g.report root time ds))
      ∧ (Text.lines (Mermaid.render (g.report root time ds)) = Mermaid.lines (g.report root time ds)
        ↔ ∀ id ∈ g.modules, '\n' ∉ id.toList)
      ∧ (∀ id, Mermaid.decode (Text.mermaidEscape id) = id ↔ ¬ Mermaid.entity <:+: id.toList)
      ∧ ∀ id id', Text.mermaidEscape id = Text.mermaidEscape id'
        ↔ Mermaid.decode id = Mermaid.decode id' := by
  have hids : (g.report root time ds).modules.keys = g.ids := ExtTreeMap.keys_map
  have houtline := Mermaid.isOutline_lines (g.report root time ds)
  rw [Mermaid.labels, hids, drawn_report] at houtline
  refine ⟨houtline, ?_, fun _ => Mermaid.decode_mermaidEscape_eq_iff,
    fun _ _ => Mermaid.mermaidEscape_eq_iff⟩
  rw [Mermaid.render, Text.lines_unlines_eq_iff, Mermaid.forall_break_notMem_lines_iff]
  have hmodules : (∀ id ∈ (g.report root time ds).modules, '\n' ∉ id.toList)
      ↔ ∀ id ∈ g.modules, '\n' ∉ id.toList :=
    forall_congr' fun _ => imp_congr_left ExtTreeMap.mem_map
  rw [hmodules]
  refine and_iff_right_of_imp fun h => forall_breaks_text_iff.2 fun m hm => h m ?_
  obtain ⟨_, hedge, -⟩ := TransGen.head'_iff.1 hm
  exact hedge.source_mem

/-- Three modules: one with a quotation mark, one with the entity for it in the
same place, and one with a line break on a cycle with the first. -/
def leakingNames : Graph :=
  let modules := ["a\"", "a#quot;", "b\nc"].foldl (fun g id => g.addModule (.new id ⟨id⟩)) empty
  (modules.addEdge "a\"" "b\nc" .explicit).addEdge "b\nc" "a\"" .explicit

/-- **Ids can leak into a Mermaid text**: a comment does not end where its line
ends, and two modules have one label. -/
theorem not_isOutline_leakingNames :
    (∀ labels, ¬ Mermaid.IsOutline leakingNames.ids leakingNames.cycles leakingNames.edges labels
        (Text.lines (Mermaid.render (leakingNames.report ⟨"."⟩ none []))))
      ∧ "a\"" ∈ leakingNames.modules ∧ "a#quot;" ∈ leakingNames.modules
      ∧ Text.mermaidEscape "a\"" = Text.mermaidEscape "a#quot;" := by
  have hcycle : ⟨["a\"", "b\nc", "a\""]⟩ ∈ leakingNames.cycles := by decide +kernel
  refine ⟨fun labels h => ?_, by decide, by decide, by decide⟩
  exact Text.break_notMem_of_mem_lines (h.comment_mem hcycle) (by decide)

end Graph

end StackGraph
