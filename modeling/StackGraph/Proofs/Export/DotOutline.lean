import StackGraph.Proofs.Export.Lines
import StackGraph.Proofs.Export.Quoting
import StackGraph.Proofs.Graph.CycleEdges
import StackGraph.Proofs.Ordered
/-!
# The outline of a DOT text

The exporter writes a comment per cycle, a statement per module and a statement
per edge, each meant as a line of its own. This module says of which of them that
is true, for ids that may hold any character.

A statement is read as tokens: names between quotation marks, and characters
outside of them. The names it holds are the ids it is about, whatever they are,
and the semicolon that ends the statement is the only one outside of names
(`Dot.isNodeStatement_nodeStatement`, `Dot.isEdgeStatement_edgeStatement`); so
every statement is one line. A comment has no names. It lists the modules of its
cycle as they are, and a line break in one of them ends the comment, so that the
rest of the id stands on a line of its own, outside of every statement and every
comment. Hence the text has a line more for each line break in a comment
(`Graph.dot_lines`), and its lines are those that were meant exactly if no module
on a cycle has a line break in its id.
-/

namespace StackGraph

open Std Relation

namespace Dot

/-! ## Statements -/

/-- What a node shows. -/
def label (id : String) (m : ModuleReport) : String := id ++ if m.stub then "\n(stub)" else ""

/-- **No end of a statement** is among some tokens. -/
def IsOpen (ts : List Token) : Prop := ∀ c ∈ [';', '\n'], .char c ∉ ts

/-- **A line is a statement about two names** if it reads as one of them, what
stands between the two, the other one, more that has no end of a statement, and the
end. -/
def IsStatement (first between second closing line : String) : Prop :=
  ∃ more, tokens? line = some (chars "    " ++ ([.name first] ++ (chars between ++
      ([.name second] ++ (more ++ chars closing)))))
    ∧ IsOpen more

/-- **The statement of a module** has the name of its node and, between brackets,
its label and further attributes. -/
def IsNodeStatement (id : String) (m : ModuleReport) : String → Prop :=
  IsStatement id " [label=" (label id m) "];"

/-- **The statement of an edge** has the names of its ends, with an arrow in between,
and its attributes, if it has any. -/
def IsEdgeStatement (e : Edge) : String → Prop := IsStatement e.source " -> " e.target ";"

instance : DecidablePred IsOpen := fun _ => List.decidableBAll _ _

variable {r : Report} {id : String} {m : ModuleReport} {e : Edge} {onCycle : Bool}
variable {first between second closing line s t x : String} {ls as : List String}
variable {ts us : List Token}

theorem IsOpen.append (h : IsOpen ts) (h' : IsOpen us) : IsOpen (ts ++ us) :=
  fun c hc => List.mem_append.not.2 (not_or.2 ⟨h c hc, h' c hc⟩)

/-- A text can stand in a statement if its names end in it and it does not end the
statement. -/
def IsInner (s : String) : Prop := ∃ ts, tokens? s = some ts ∧ IsOpen ts

theorem IsInner.append (h : IsInner s) (h' : IsInner t) : IsInner (s ++ t) := by
  obtain ⟨ts, hs, hts⟩ := h
  obtain ⟨us, ht, hus⟩ := h'
  exact ⟨ts ++ us, tokens?_append hs ht, hts.append hus⟩

/-- Names are read whatever they are, and all else has no name in it. -/
theorem isStatement_of_isInner (hbetween : '"' ∉ between.toList) (hclosing : '"' ∉ closing.toList)
    (h : IsInner s) :
    IsStatement first between second closing
      ("    " ++ (nodeName first ++ (between ++ (nodeName second ++ (s ++ closing))))) := by
  obtain ⟨more, hmore, hopen⟩ := h
  refine ⟨more, ?_, hopen⟩
  refine tokens?_append (tokens?_of_notMem (by decide)) (tokens?_append tokens?_nodeName ?_)
  refine tokens?_append (tokens?_of_notMem hbetween) (tokens?_append tokens?_nodeName ?_)
  exact tokens?_append hmore (tokens?_of_notMem hclosing)

theorem IsStatement.breaks_eq_zero (h : IsStatement first between second closing line)
    (hbetween : '\n' ∉ between.toList) (hclosing : '\n' ∉ closing.toList) :
    Text.breaks line = 0 := by
  obtain ⟨more, hline, hopen⟩ := h
  have hmore := hopen '\n' (by decide)
  refine Text.breaks_eq_zero.2 (break_notMem_of_tokensFrom hline ?_)
  simp [chars, hbetween, hmore, hclosing]

/-- The attributes that do not depend on ids. -/
def fixedAttributes : List String :=
  ["style=\"rounded,dashed\"", "fontcolor=gray40", "style=\"rounded,filled\"",
    "fillcolor=gray90", "style=dashed", "color=red", "penwidth=2"]

theorem isInner_of_mem_fixedAttributes (h : s ∈ fixedAttributes) : IsInner s := by
  have hall : ∀ s ∈ fixedAttributes, ∃ ts ∈ tokens? s, IsOpen ts := by decide
  obtain ⟨ts, hts, hopen⟩ := hall s h
  exact ⟨ts, hts, hopen⟩

/-- Such attributes can follow another one. -/
theorem isInner_join (h : ∀ a ∈ as, a ∈ fixedAttributes) :
    IsInner (String.join (as.map (", " ++ ·))) := by
  induction as with
  | nil => exact ⟨[], rfl, by decide⟩
  | cons a as ih =>
    obtain ⟨ha, has⟩ := List.forall_mem_cons.1 h
    have hcomma : IsInner ", " := ⟨_, rfl, by decide⟩
    rw [List.map_cons, String.join_cons]
    exact (hcomma.append (isInner_of_mem_fixedAttributes ha)).append (ih has)

theorem nodeName_label : nodeName (label id m)
    = "\"" ++ Text.dotEscape id ++ (if m.stub then "\\n(stub)" else "") ++ "\"" := by
  unfold nodeName label
  cases m.stub <;> simp [Text.dotEscape, Text.escape, Text.dotChar, ← String.toList_inj]

/-- The attributes of a module's node behind its label. -/
def furtherAttributes (m : ModuleReport) (onCycle : Bool) : List String :=
  (if m.stub then ["style=\"rounded,dashed\"", "fontcolor=gray40"]
    else if m.dependencies.isEmpty && m.dependents.isEmpty then
      ["style=\"rounded,filled\"", "fillcolor=gray90"]
    else []) ++ (if onCycle then ["color=red"] else [])

theorem nodeAttributes_eq : nodeAttributes id m onCycle
    = ("label=" ++ nodeName (label id m)) :: furtherAttributes m onCycle := by
  rw [nodeName_label, nodeAttributes]
  simp only [String.append_assoc]
  rfl

theorem mem_fixedAttributes (h : s ∈ furtherAttributes m onCycle) : s ∈ fixedAttributes := by
  have hall : ∀ a ∈ furtherAttributes m onCycle, a ∈ fixedAttributes := by
    unfold furtherAttributes
    cases m.stub <;> cases m.dependencies.isEmpty && m.dependents.isEmpty <;> cases onCycle <;>
      decide
  exact hall s h

theorem nodeStatement_eq : nodeStatement id m onCycle
    = "    " ++ (nodeName id ++ (" [label=" ++ (nodeName (label id m) ++
        (String.join ((furtherAttributes m onCycle).map (", " ++ ·)) ++ "];")))) := by
  rw [nodeStatement, nodeAttributes_eq, Text.intercalate_cons]
  simp only [String.append_assoc]
  rfl

theorem isNodeStatement_nodeStatement : IsNodeStatement id m (nodeStatement id m onCycle) := by
  rw [nodeStatement_eq]
  exact isStatement_of_isInner (by decide) (by decide) (isInner_join fun _ => mem_fixedAttributes)

/-- What follows the names of an edge's ends. -/
theorem isInner_edgeAttributes : IsInner (if (edgeAttributes e.kind onCycle).isEmpty then ""
    else " [" ++ ", ".intercalate (edgeAttributes e.kind onCycle) ++ "]") := by
  have hfixed : ∀ a ∈ edgeAttributes e.kind onCycle, a ∈ fixedAttributes := by
    cases e.kind <;> cases onCycle <;> decide
  cases hattributes : edgeAttributes e.kind onCycle with
  | nil => exact ⟨[], rfl, by decide⟩
  | cons a as =>
    rw [hattributes] at hfixed
    obtain ⟨ha, has⟩ := List.forall_mem_cons.1 hfixed
    have hleft : IsInner " [" := ⟨_, rfl, by decide⟩
    have hright : IsInner "]" := ⟨_, rfl, by decide⟩
    have hinner := (isInner_of_mem_fixedAttributes ha).append (isInner_join has)
    rw [Text.intercalate_cons]
    exact (hleft.append hinner).append hright

theorem isEdgeStatement_edgeStatement : IsEdgeStatement e (edgeStatement e onCycle) := by
  simp only [edgeStatement, String.append_assoc]
  refine isStatement_of_isInner (by decide) (by decide) ?_
  simpa only [String.append_assoc] using @isInner_edgeAttributes e onCycle

/-! ## Outlines -/

/-- **What the lines of a DOT text are meant to be**: the header, a comment per
cycle, an empty line, a statement per module, another empty line if there are
edges, a statement per edge, and a bracket that closes the graph. -/
def IsOutline (r : Report) (ls : List String) : Prop :=
  ∃ nodes edges,
    ls = header ++ r.cycles.map cycleComment ++ [""] ++ nodes ++
        (if r.edges.isEmpty then [] else [""]) ++ edges ++ ["\x7d"]
      ∧ List.Forall₂ (fun entry => IsNodeStatement entry.1 entry.2) r.modules.toList nodes
      ∧ List.Forall₂ IsEdgeStatement r.edges edges

theorem isOutline_lines (r : Report) : IsOutline r (lines r) := by
  refine ⟨_, _, rfl, ?_, ?_⟩
  · rw [List.forall₂_map_right_iff]
    exact List.forall₂_same.2 fun _ _ => isNodeStatement_nodeStatement
  · rw [List.forall₂_map_right_iff]
    exact List.forall₂_same.2 fun _ _ => isEdgeStatement_edgeStatement

/-- **How many lines an outline has.** -/
theorem IsOutline.length (h : IsOutline r ls) :
    ls.length = 6 + r.cycles.length + r.modules.size + r.edges.length
      + if r.edges.isEmpty then 0 else 1 := by
  obtain ⟨nodes, edges, rfl, hnodes, hedges⟩ := h
  have hnodes := hnodes.length_eq
  rw [ExtTreeMap.length_toList] at hnodes
  rw [hnodes, hedges.length_eq]
  simp only [List.length_append, List.length_map, List.length_singleton]
  have hheader : header.length = 4 := rfl
  split <;> simp only [List.length_nil, List.length_singleton] <;> omega

/-- **Only the comments of an outline can hold line breaks.** -/
theorem IsOutline.sum_breaks (h : IsOutline r ls) :
    (ls.map Text.breaks).sum = (r.cycles.map fun c => Text.breaks c.text).sum := by
  obtain ⟨nodes, edges, rfl, hnodes, hedges⟩ := h
  have hheader : (header.map Text.breaks).sum = 0 := by decide
  have hcomments : (r.cycles.map cycleComment).map Text.breaks
      = r.cycles.map fun c => Text.breaks c.text := by
    rw [List.map_map]
    refine List.map_congr_left fun c _ => ?_
    rw [Function.comp_apply, cycleComment, Text.breaks_append]
    exact Nat.zero_add _
  have hnodes := Text.map_breaks_of_forall₂
    (hnodes.imp fun _ _ h => h.breaks_eq_zero (by decide) (by decide))
  have hedges := Text.map_breaks_of_forall₂
    (hedges.imp fun _ _ h => h.breaks_eq_zero (by decide) (by decide))
  have hempty : ((if r.edges.isEmpty then [] else [""]).map Text.breaks).sum = 0 := by
    split <;> rfl
  have hgap : ([""].map Text.breaks).sum = 0 := rfl
  have hend : (["\x7d"].map Text.breaks).sum = 0 := rfl
  simp only [List.map_append, List.sum_append, hheader, hcomments, hgap, hnodes, hempty, hedges,
    hend, List.sum_map_zero, Nat.zero_add, Nat.add_zero]

/-- **The text has the lines of the outline and one more for each line break in a
comment.** -/
theorem length_lines_render (r : Report) :
    (Text.lines (render r)).length
      = 6 + r.cycles.length + r.modules.size + r.edges.length
        + (if r.edges.isEmpty then 0 else 1) + (r.cycles.map fun c => Text.breaks c.text).sum := by
  rw [render, Text.length_lines_unlines, (isOutline_lines r).length, (isOutline_lines r).sum_breaks]

end Dot

namespace Graph

variable (g : Graph) (root : Path) (time : Option Timestamp) (ds : List Diagnostic)

/-- **What lines the DOT text of a graph has.** The exporter writes the outline,
and the text has as many lines as there are in it and besides a line for every
line break in a comment. So its lines are those of the outline exactly if no
module on a cycle has a line break in its id. -/
theorem dot_lines :
    Dot.IsOutline (g.report root time ds) (Dot.lines (g.report root time ds))
      ∧ (Text.lines (Dot.render (g.report root time ds))).length
        = 6 + g.cycles.length + g.modules.size + g.edges.length
          + (if g.edges.isEmpty then 0 else 1)
          + (g.cycles.map fun c => Text.breaks c.text).sum
      ∧ (Text.lines (Dot.render (g.report root time ds)) = Dot.lines (g.report root time ds)
        ↔ ∀ m, TransGen g.HasEdge m m → '\n' ∉ m.toList) := by
  have houtline := Dot.isOutline_lines (g.report root time ds)
  refine ⟨houtline, ?_, ?_⟩
  · have hsize : (g.report root time ds).modules.size = g.modules.size := ExtTreeMap.size_map
    rw [← hsize]
    exact Dot.length_lines_render _
  · rw [Dot.render, Text.lines_unlines_eq_iff, ← Text.sum_breaks_eq_zero_iff,
      houtline.sum_breaks, List.sum_eq_zero_iff, List.forall_mem_map]
    exact forall_breaks_text_iff

/-- Two modules that need each other, one of them with a line break in its id. -/
def brokenLine : Graph :=
  let modules := ["a\nb", "c"].foldl (fun g id => g.addModule (.new id ⟨id⟩)) empty
  (modules.addEdge "a\nb" "c" .explicit).addEdge "c" "a\nb" .explicit

/-- **A line break in an id ends a comment.** The one comment about the two
modules takes three lines, so the text is no outline of their report. -/
theorem not_isOutline_brokenLine :
    brokenLine.cycles.length = 1 ∧ brokenLine.modules.size = 2 ∧ brokenLine.edges.length = 2
      ∧ (Text.lines (Dot.render (brokenLine.report ⟨"."⟩ none []))).length = 14
      ∧ ¬ Dot.IsOutline (brokenLine.report ⟨"."⟩ none [])
          (Text.lines (Dot.render (brokenLine.report ⟨"."⟩ none []))) := by
  have hcycles : (brokenLine.report ⟨"."⟩ none []).cycles = [⟨["a\nb", "c", "a\nb"]⟩] := by
    decide +kernel
  have hmodules : (brokenLine.report ⟨"."⟩ none []).modules.size = 2 := by decide
  have hedges : (brokenLine.report ⟨"."⟩ none []).edges.length = 2 := by decide
  have hlines := Dot.length_lines_render (brokenLine.report ⟨"."⟩ none [])
  rw [hcycles, hmodules, hedges] at hlines
  refine ⟨congrArg List.length hcycles, by decide, hedges, hlines, fun houtline => ?_⟩
  have hlength := houtline.length
  rw [hlines, hcycles, hmodules, hedges] at hlength
  exact absurd hlength (by decide)

end Graph

end StackGraph
