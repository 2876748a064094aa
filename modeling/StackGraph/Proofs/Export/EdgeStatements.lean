import Mathlib.Data.List.Forall2
import Std.Data.String.ToNat
import StackGraph.Export
import StackGraph.Proofs.Digits
import StackGraph.Proofs.Export.Layout
import StackGraph.Proofs.Graph.CycleEdges
/-!
# What the exporters write for the edges

Three exporters draw the graph of a report, and each writes its edges in a loop
of its own. This module says that the three agree with each other and with the
graph: a loop writes one statement per edge, in the order of the edges, and
marks exactly those whose target reaches their source
(`Graph.cycle_edges_marked`).

The loops differ in what can go wrong. The one for DOT writes every edge. The
one for Mermaid leaves out an edge if an end has no number, and the one for
HTML if an end has no place; in the report of a graph neither happens, since
the ends of an edge are modules, every module has a number, and every module
has a place because those in no layer make up a row of their own
(`Layout.exists_place`). Besides, Mermaid marks links by their number in lines
that follow all links, so there the number has to be the right one.

A mark is read off the text and not off the program that wrote it: in DOT it is
how the statement ends, in HTML one of the classes that its first attribute
lists, and in Mermaid a line for the number of the link. What stands before and
behind these places cannot be mistaken for a mark, whatever the ids hold.
-/

namespace StackGraph

open Std Relation

/-! ## Lists and texts -/

/-- If a function is defined on a list, then each value comes from its own
element. -/
theorem forall₂_filterMap {α β : Type} {f : α → Option β} {p : α → β → Prop} {xs : List α}
    (h : ∀ x ∈ xs, ∃ y, f x = some y ∧ p x y) : List.Forall₂ p xs (xs.filterMap f) := by
  induction xs with
  | nil => exact .nil
  | cons x xs ih =>
    obtain ⟨y, hy, hp⟩ := h x List.mem_cons_self
    rw [List.filterMap_cons_some hy]
    exact .cons hp (ih fun x hx => h x (List.mem_cons_of_mem _ hx))

/-- What holds of both elements or of none at each place holds somewhere in both
lists or in none. -/
theorem exists_mem_iff_of_forall₂ {α β : Type} {p : α → Prop} {q : β → Prop} {xs : List α}
    {ys : List β} (h : List.Forall₂ (fun x y => q y ↔ p x) xs ys) :
    (∃ y ∈ ys, q y) ↔ ∃ x ∈ xs, p x := by
  induction h with
  | nil => simp
  | cons hpq _ ih => rw [List.exists_mem_cons_iff, List.exists_mem_cons_iff, hpq, ih]

/-- What holds of both elements or of none at each place holds at the same
places. -/
theorem exists_getElem?_iff {α β : Type} {p : α → Prop} {q : β → Prop} {xs : List α}
    {ys : List β} (h : List.Forall₂ (fun x y => q y ↔ p x) xs ys) (i : Nat) :
    (∃ y, ys[i]? = some y ∧ q y) ↔ ∃ x, xs[i]? = some x ∧ p x := by
  induction h generalizing i with
  | nil => simp
  | cons hpq _ ih =>
    cases i with
    | zero => simpa using hpq
    | succ i => simpa using ih i

/-- What ends a text decides about longer ends. -/
theorem not_suffix_append {x y m : List Char} (hlen : y.length ≤ m.length) (h : ¬ y <:+ m) :
    ¬ m <:+ x ++ y :=
  fun hm => h (List.suffix_of_suffix_length_le (List.suffix_append x y) hm hlen)

theorem Text.begins_append (s t : String) : s.toList <+: (s ++ t).toList := by
  rw [String.toList_append]
  exact List.prefix_append _ _

/-- Some of the lines of a text are a part of it. -/
theorem Text.exists_unlines_append (a b c : List String) :
    ∃ front back, unlines (a ++ b ++ c) = front ++ String.join (b.map (· ++ "\n")) ++ back := by
  refine ⟨unlines a, unlines c, ?_⟩
  unfold unlines
  rw [List.map_append, List.map_append, String.join_append, String.join_append]

/-! ## The report of a graph -/

theorem Report.onCycle_iff {r : Report} {e : Edge} :
    r.onCycle e = true ↔ e.ends ∈ r.cycleEdges := by
  rw [onCycle, List.any_eq_true, cycleEdges, mem_setOfList, List.mem_flatMap]
  refine exists_congr fun c => and_congr_right fun _ => ?_
  exact List.contains_iff_mem

namespace Graph

variable {g : Graph} {root : Path} {time : Option Timestamp} {ds : List Diagnostic} {e : Edge}

theorem mem_cycleEdges_report {u v : String} :
    (u, v) ∈ (g.report root time ds).cycleEdges
      ↔ g.HasEdge u v ∧ ReflTransGen g.HasEdge v u := by
  rw [Report.cycleEdges, mem_setOfList, List.mem_flatMap]
  exact exists_mem_edges_iff

theorem mem_cycleMembers_report {m : String} :
    m ∈ (g.report root time ds).cycleMembers ↔ TransGen g.HasEdge m m := by
  rw [Report.cycleMembers, mem_setOfList, List.mem_flatMap]
  exact exists_mem_members_iff

/-- **An edge of the graph is one on a cycle** exactly if its target reaches its
source. -/
theorem contains_cycleEdges_report (h : e ∈ g.edges) :
    (g.report root time ds).cycleEdges.contains (e.source, e.target) = true
      ↔ ReflTransGen g.HasEdge e.target e.source := by
  rw [← ExtTreeSet.mem_iff_contains, mem_cycleEdges_report]
  exact and_iff_right (hasEdge_of_mem_edges h)

/-- **What an exporter writes for the edges of a graph**: a part of its text
consists of one statement per edge, in the order of the edges, and the edges
whose statements are marked are those on a cycle. -/
structure WritesEdges (g : Graph) (text : String) (statements : List String)
    (states : Edge → String → Prop) (marked : Nat → Prop) : Prop where
  inside : ∃ front back, text = front ++ String.join statements ++ back
  one_each : List.Forall₂ states g.edges statements
  marked_iff : ∀ i, marked i ↔ ∃ e, g.edges[i]? = some e ∧ ReflTransGen g.HasEdge e.target e.source

/-- Marks that are part of the statements can be read one statement at a
time. -/
theorem WritesEdges.of_forall₂ {text : String} {statements : List String}
    {states : Edge → String → Prop} {marked : String → Prop}
    (hinside : ∃ front back, text = front ++ String.join statements ++ back)
    (h : List.Forall₂
      (fun e s => states e s ∧ (marked s ↔ ReflTransGen g.HasEdge e.target e.source))
      g.edges statements) :
    g.WritesEdges text statements states fun i => ∃ s, statements[i]? = some s ∧ marked s :=
  ⟨hinside, h.imp fun _ _ hes => hes.1, exists_getElem?_iff (h.imp fun _ _ hes => hes.2)⟩

end Graph

/-! ## DOT -/

namespace Dot

variable {e : Edge} {onCycle : Bool}

/-- The statements of the edges as the loop writes them. -/
def edgeTexts (r : Report) : List String :=
  (r.edges.map fun e => edgeStatement e (r.cycleEdges.contains (e.source, e.target))).map
    (· ++ "\n")

theorem render_eq (r : Report) :
    ∃ front back, render r = front ++ String.join (edgeTexts r) ++ back :=
  Text.exists_unlines_append _ _ ["\x7d"]

/-- A statement is about an edge if it begins with its ends. -/
def States (e : Edge) (statement : String) : Prop :=
  ("    " ++ nodeName e.source ++ " -> " ++ nodeName e.target).toList <+: statement.toList

theorem states_edgeStatement : States e (edgeStatement e onCycle ++ "\n") := by
  unfold States edgeStatement
  have h := Text.begins_append
  exact ((h _ _).trans (h _ _)).trans (h _ _)

/-- How a mark ends a statement. -/
def mark : String := "color=red, penwidth=2];\n"

/-- A statement is marked if its attributes end with the colour and the width of
a cycle. -/
def Marked (statement : String) : Prop := mark.toList <:+ statement.toList

/-- What follows the name of the target. -/
def ending : EdgeKind → Bool → String
  | .explicit, false => "\";"
  | .explicit, true => "\" [color=red, penwidth=2];"
  | .inferred, false => "\" [style=dashed];"
  | .inferred, true => "\" [style=dashed, color=red, penwidth=2];"

theorem edgeStatement_eq :
    edgeStatement e onCycle
      = "    " ++ nodeName e.source ++ " -> \"" ++ Text.dotEscape e.target
        ++ ending e.kind onCycle := by
  obtain ⟨source, target, kind, evidence⟩ := e
  cases kind <;> cases onCycle <;>
    simp [edgeStatement, nodeName, edgeAttributes, ending, ← String.toList_inj]

/-- **The attributes show whether the edge is on a cycle**, whatever its ends
are called. -/
theorem marked_edgeStatement : Marked (edgeStatement e onCycle ++ "\n") ↔ onCycle = true := by
  unfold Marked
  rw [edgeStatement_eq, String.append_assoc, String.toList_append]
  cases onCycle with
  | false =>
    have hnot : ∀ kind : EdgeKind, (ending kind false ++ "\n").toList.length ≤ mark.toList.length
        ∧ ¬ (ending kind false ++ "\n").toList <:+ mark.toList := by
      rintro (_ | _) <;> decide
    exact iff_of_false (not_suffix_append (hnot e.kind).1 (hnot e.kind).2) Bool.false_ne_true
  | true =>
    have hends : ∀ kind : EdgeKind, mark.toList <:+ (ending kind true ++ "\n").toList := by
      rintro (_ | _) <;> decide
    exact iff_of_true ((hends e.kind).trans (List.suffix_append _ _)) rfl

end Dot

/-! ## Mermaid -/

namespace Mermaid

/-- The links as the loop writes them. -/
def linkTexts (r : Report) : List String := ((links r).map Link.line).map (· ++ "\n")

theorem render_eq (r : Report) :
    ∃ front back, render r = front ++ String.join (linkTexts r) ++ back := by
  unfold render lines
  rw [List.append_assoc, List.append_assoc]
  exact Text.exists_unlines_append _ _ _

/-- A link is about an edge if it joins the numbers of its ends. -/
def States (ids : List String) (e : Edge) (link : String) : Prop :=
  ∃ source target, ids[source]? = some e.source ∧ ids[target]? = some e.target
    ∧ link = "    " ++ nodeName source ++ " " ++ arrow e.kind ++ " " ++ nodeName target ++ "\n"

theorem mem_highlighted {ls : List Link} {i : Nat} :
    i ∈ highlighted ls ↔ ∃ l, ls[i]? = some l ∧ l.onCycle = true := by
  simp only [highlighted, List.mem_map, List.mem_filter, List.mem_zipIdx_iff_getElem?]
  constructor
  · rintro ⟨⟨l, i⟩, ⟨hl, hcycle⟩, rfl⟩
    exact ⟨l, hl, hcycle⟩
  · rintro ⟨l, hl, hcycle⟩
    exact ⟨(l, i), ⟨hl, hcycle⟩, rfl⟩

/-- How a line begins that styles the link with a number. -/
def styleHead (index : Nat) : String := "    linkStyle " ++ toString index ++ " "

/-- **A line styles the link with a number** if it begins with the keyword and the
number. -/
def StylesLink (index : Nat) (line : String) : Prop := (styleHead index).toList <+: line.toList

instance (i : Nat) : DecidablePred (StylesLink i) :=
  fun _ => inferInstanceAs (Decidable (_ <+: _))

theorem toList_styleHead {i : Nat} : (styleHead i).toList
    = "    linkStyle ".toList ++ ((toString i).toList ++ " ".toList) :=
  String.toList_append.trans <|
    (congrArg (· ++ " ".toList) String.toList_append).trans (List.append_assoc _ _ _)

theorem toList_linkStyle {i : Nat} : (linkStyle i).toList
    = "    linkStyle ".toList ++
      ((toString i).toList ++ " stroke:#d32f2f,stroke-width:3px".toList) :=
  String.toList_append.trans <|
    (congrArg (· ++ " stroke:#d32f2f,stroke-width:3px".toList) String.toList_append).trans
      (List.append_assoc _ _ _)

theorem stylesLink_linkStyle_iff {i j : Nat} : StylesLink i (linkStyle j) ↔ i = j := by
  constructor
  · rintro ⟨rest, hrest⟩
    rw [toList_styleHead, toList_linkStyle, List.append_assoc, List.append_assoc] at hrest
    have hnumbers := List.append_cancel_left hrest
    have hdigits : ∀ n : Nat, ∀ c ∈ (toString n).toList, c.isDigit := fun n c hc =>
      Text.isDigit_of_mem_toDigits (Nat.toList_repr ▸ hc)
    -- both numbers end at the blank behind them
    have hlist := (Text.append_inj_of_stops (hdigits i) (Text.stops_cons.2 (by decide)) (hdigits j)
      (Text.stops_cons.2 (by decide)) hnumbers).1
    exact Nat.repr_injective (String.toList_inj.1 hlist)
  · rintro rfl
    refine ⟨"stroke:#d32f2f,stroke-width:3px".toList, ?_⟩
    rw [toList_styleHead, toList_linkStyle, List.append_assoc, List.append_assoc]
    rfl

/-- The first letter of a line after the indentation tells styles from all
other lines. -/
theorem not_stylesLink {i : Nat} {c : Char} {l : String} (hl : l.toList[4]? = some c)
    (hc : c ≠ 'l') : ¬ StylesLink i l := by
  rintro ⟨rest, hrest⟩
  have hstyle : l.toList[4]? = some 'l' := by
    rw [← hrest, toList_styleHead]
    rfl
  exact hc (Option.some.inj (hl.symm.trans hstyle))

theorem not_stylesLink_of_mem_classLines {i : Nat} {name style l : String} {indices : List Nat}
    (h : l ∈ classLines name style indices) : ¬ StylesLink i l := by
  refine not_stylesLink (c := 'c') ?_ (by decide)
  unfold classLines at h
  split at h
  · cases h
  · rcases List.mem_pair.1 h with rfl | rfl <;> simp

theorem linkStyle_mem_lines_of_mem {r : Report} {i : Nat} (hi : i ∈ highlighted (links r)) :
    linkStyle i ∈ lines r := by
  -- the styles stand before the two lists of classes
  refine List.mem_append_left _ (List.mem_append_left _ (List.mem_append_right _ ?_))
  exact List.mem_map_of_mem hi

/-- **The lines that style links are those for the links on a cycle.** -/
theorem exists_stylesLink_iff {r : Report} {i : Nat} :
    (∃ l ∈ lines r, StylesLink i l) ↔ i ∈ highlighted (links r) := by
  constructor
  · rintro ⟨l, h, hl⟩
    simp only [lines, List.mem_append] at h
    rcases h with (((((hhead | hcomment) | hnode) | hlink) | hstyle) | hstub) | hcycle
    · obtain rfl := List.mem_singleton.1 hhead
      exact absurd hl (not_stylesLink (c := 'h') (by decide) (by decide))
    · obtain ⟨c, -, rfl⟩ := List.mem_map.1 hcomment
      exact absurd hl (not_stylesLink (c := '%') (by simp) (by decide))
    · obtain ⟨node, -, rfl⟩ := List.mem_map.1 hnode
      exact absurd hl (not_stylesLink (c := 'n') (by simp [nodeLine, nodeName]) (by decide))
    · obtain ⟨link, -, rfl⟩ := List.mem_map.1 hlink
      exact absurd hl (not_stylesLink (c := 'n') (by simp [Link.line, nodeName]) (by decide))
    · obtain ⟨j, hj, rfl⟩ := List.mem_map.1 hstyle
      rwa [stylesLink_linkStyle_iff.1 hl]
    · exact absurd hl (not_stylesLink_of_mem_classLines hstub)
    · exact absurd hl (not_stylesLink_of_mem_classLines hcycle)
  · intro hi
    exact ⟨linkStyle i, linkStyle_mem_lines_of_mem hi, stylesLink_linkStyle_iff.2 rfl⟩

theorem linkStyle_mem_lines {r : Report} {i : Nat} :
    linkStyle i ∈ lines r ↔ i ∈ highlighted (links r) := by
  refine ⟨fun h => ?_, linkStyle_mem_lines_of_mem⟩
  exact exists_stylesLink_iff.1 ⟨_, h, stylesLink_linkStyle_iff.2 rfl⟩

theorem exists_idxOf? {ids : List String} {id : String} (h : id ∈ ids) :
    ∃ n, ids.idxOf? id = some n ∧ ids[n]? = some id := by
  obtain ⟨n, hn⟩ := Option.isSome_iff_exists.1 (List.isSome_idxOf?.2 h)
  obtain ⟨hlt, heq, -⟩ := List.idxOf?_eq_some_iff.1 hn
  exact ⟨n, hn, List.getElem?_eq_some_iff.2 ⟨hlt, heq⟩⟩

/-- The link of an edge as the loop makes it. -/
def link? (r : Report) (e : Edge) : Option Link := do
  let source ← r.modules.keys.idxOf? e.source
  let target ← r.modules.keys.idxOf? e.target
  return ⟨source, target, e.kind, r.cycleEdges.contains (e.source, e.target)⟩

/-- The edges that are drawn: their ends are modules of the report. -/
def drawn (r : Report) : List Edge :=
  r.edges.filter fun e => e.source ∈ r.modules ∧ e.target ∈ r.modules

theorem link?_eq_none {r : Report} {e : Edge}
    (h : ¬ (e.source ∈ r.modules ∧ e.target ∈ r.modules)) : link? r e = none := by
  have hnone : ∀ id, id ∉ r.modules → r.modules.keys.idxOf? id = none := fun id h =>
    List.idxOf?_eq_none_iff.2 (mt ExtTreeMap.mem_keys.1 h)
  unfold link?
  rcases not_and_or.1 h with h | h
  · simp [hnone _ h]
  · simp [hnone _ h]

theorem exists_link?_eq {r : Report} {e : Edge} (hsource : e.source ∈ r.modules)
    (htarget : e.target ∈ r.modules) :
    ∃ l, link? r e = some l ∧ States r.modules.keys e (l.line ++ "\n")
      ∧ (l.onCycle = true ↔ (e.source, e.target) ∈ r.cycleEdges) := by
  obtain ⟨source, hsource, hs⟩ := exists_idxOf? (ExtTreeMap.mem_keys.2 hsource)
  obtain ⟨target, htarget, ht⟩ := exists_idxOf? (ExtTreeMap.mem_keys.2 htarget)
  refine ⟨⟨source, target, e.kind, r.cycleEdges.contains (e.source, e.target)⟩, ?_,
    ⟨source, target, hs, ht, rfl⟩, ?_⟩
  · simp only [link?, hsource, htarget, Option.bind_eq_bind, Option.bind_some, Option.pure_def]
  · show r.cycleEdges.contains (e.source, e.target) = true ↔ _
    exact ExtTreeSet.mem_iff_contains.symm

/-- **The links join the ends of the edges that are drawn**, and those on a cycle
are marked. -/
theorem forall₂_drawn (r : Report) :
    List.Forall₂ (fun e l => States r.modules.keys e (l.line ++ "\n")
        ∧ (l.onCycle = true ↔ (e.source, e.target) ∈ r.cycleEdges))
      (drawn r) (links r) := by
  have hlinks : links r = (drawn r).filterMap (link? r) := by
    rw [drawn, List.filterMap_filter]
    refine List.filterMap_congr fun e _ => ?_
    split
    · rfl
    · next hends => exact link?_eq_none (mt decide_eq_true hends)
  rw [hlinks]
  refine forall₂_filterMap fun e he => ?_
  obtain ⟨hsource, htarget⟩ := of_decide_eq_true (List.mem_filter.1 he).2
  exact exists_link?_eq hsource htarget

end Mermaid

/-! ## HTML -/

namespace Html

theorem renderAll_append (ps qs : List Part) :
    renderAll (ps ++ qs) = renderAll ps ++ renderAll qs := by
  unfold renderAll
  rw [List.map_append, String.join_append]

theorem renderAll_flatMap {α : Type} (f : α → List Part) (xs : List α) :
    renderAll (xs.flatMap f) = String.join (xs.map fun x => renderAll (f x)) := by
  induction xs with
  | nil => rfl
  | cons x xs ih => rw [List.flatMap_cons, renderAll_append, ih, List.map_cons, String.join_cons]

/-- The elements of the edges as the loop writes them. -/
def edgeTexts (r : Report) : List String :=
  (drawnEdges r (Layout.ofReport r)).map fun (e, source, target) =>
    renderAll (edgeParts e source target (r.cycleEdges.contains (e.source, e.target)))

theorem edgeParts_infix_page (r : Report) :
    (drawnEdges r (Layout.ofReport r)).flatMap (fun (e, source, target) =>
      edgeParts e source target (r.cycleEdges.contains (e.source, e.target))) <:+: page r := by
  have hdrawing : drawing r (Layout.ofReport r) <:+: page r :=
    (List.infix_append _ _ _).trans
      (((List.prefix_append _ _).trans (List.prefix_append _ _)).trans
        (List.prefix_append _ _)).isInfix
  refine .trans ?_ hdrawing
  exact (List.infix_append _ _ _).trans
    ((List.prefix_append _ _).trans (List.prefix_append _ _)).isInfix

theorem render_eq (r : Report) :
    ∃ front back, render r = front ++ String.join (edgeTexts r) ++ back := by
  obtain ⟨front, back, hpage⟩ := edgeParts_infix_page r
  refine ⟨renderAll front, renderAll back, ?_⟩
  rw [render, ← hpage, renderAll_append, renderAll_append, renderAll_flatMap]
  rfl

/-- What begins the element of an edge. -/
def opening : String := "<path class=\""

/-- The value of the first attribute. -/
def classList (element : String) : List Char :=
  (element.toList.drop opening.toList.length).takeWhile (· ≠ '"')

/-- An element is about an edge if its attributes after the classes are the ends
of the edge. -/
def States (e : Edge) (element : String) : Prop :=
  opening.toList ++ classList element ++ ("\" data-from=\"" ++ Text.htmlEscape e.source ++
    "\" data-to=\"" ++ Text.htmlEscape e.target ++ "\"").toList <+: element.toList

/-- An element is marked if it is of the class `cycle`. -/
def Marked (element : String) : Prop :=
  "cycle".toList ∈ Text.splitOn (· == ' ') (classList element)

/-- The classes of an edge. -/
def classNames (kind : EdgeKind) (onCycle : Bool) : String :=
  " ".intercalate (["edge"] ++ (if kind = .inferred then ["inferred"] else []) ++
    (if onCycle then ["cycle"] else []))

theorem classList_eq {element rest : String} {kind : EdgeKind} {onCycle : Bool}
    (h : element = opening ++ classNames kind onCycle ++ "\"" ++ rest) :
    classList element = (classNames kind onCycle).toList := by
  have hplain : (classNames kind onCycle).toList.all (· ≠ '"') = true := by
    cases kind <;> cases onCycle <;> decide
  rw [classList, h]
  simp only [String.toList_append, List.append_assoc]
  rw [List.drop_left, List.takeWhile_append_of_pos (List.all_eq_true.1 hplain)]
  simp

variable (e : Edge) (source target : Layout.Placement) (onCycle : Bool)

/-- What stands before the curve of an edge. -/
theorem exists_renderAll_edgeParts_eq :
    ∃ rest, renderAll (edgeParts e source target onCycle)
      = opening ++ classNames e.kind onCycle ++ "\""
        ++ (" data-from=\"" ++ Text.htmlEscape e.source ++ "\" data-to=\""
          ++ Text.htmlEscape e.target ++ "\"" ++ rest) := by
  refine ⟨" d=\"M " ++ renderAll ((edgeParts e source target onCycle).drop 5), ?_⟩
  simp [renderAll, edgeParts, Part.render, opening, classNames, ← String.toList_inj]

theorem classList_edgeParts :
    classList (renderAll (edgeParts e source target onCycle))
      = (classNames e.kind onCycle).toList := by
  obtain ⟨rest, hrest⟩ := exists_renderAll_edgeParts_eq e source target onCycle
  exact classList_eq hrest

theorem states_edgeParts : States e (renderAll (edgeParts e source target onCycle)) := by
  obtain ⟨rest, hrest⟩ := exists_renderAll_edgeParts_eq e source target onCycle
  unfold States
  rw [classList_edgeParts, hrest]
  refine ⟨rest.toList, ?_⟩
  simp

/-- **The classes show whether the edge is on a cycle.** -/
theorem marked_edgeParts :
    Marked (renderAll (edgeParts e source target onCycle)) ↔ onCycle = true := by
  unfold Marked
  rw [classList_edgeParts]
  cases e.kind <;> cases onCycle <;> decide

end Html

/-! ## The three exporters agree -/

namespace Graph

variable (g : Graph) (root : Path) (time : Option Timestamp) (ds : List Diagnostic)

theorem writesEdges_dot :
    g.WritesEdges (Dot.render (g.report root time ds)) (Dot.edgeTexts (g.report root time ds))
      Dot.States fun i =>
        ∃ s, (Dot.edgeTexts (g.report root time ds))[i]? = some s ∧ Dot.Marked s := by
  refine .of_forall₂ (Dot.render_eq _) ?_
  unfold Dot.edgeTexts
  rw [List.map_map, List.forall₂_map_right_iff]
  refine List.forall₂_same.2 fun e he => ⟨Dot.states_edgeStatement, ?_⟩
  exact Dot.marked_edgeStatement.trans (contains_cycleEdges_report he)

/-- Every edge of a graph is drawn. -/
theorem drawn_report : Mermaid.drawn (g.report root time ds) = g.edges := by
  refine List.filter_eq_self.2 fun e he => decide_eq_true ?_
  have hedge := hasEdge_of_mem_edges he
  exact ⟨ExtTreeMap.mem_map.2 hedge.source_mem, ExtTreeMap.mem_map.2 hedge.target_mem⟩

theorem forall₂_links :
    List.Forall₂ (fun e l => Mermaid.States g.ids e (l.line ++ "\n")
        ∧ (l.onCycle = true ↔ ReflTransGen g.HasEdge e.target e.source))
      g.edges (Mermaid.links (g.report root time ds)) := by
  have hids : (g.report root time ds).modules.keys = g.ids := ExtTreeMap.keys_map
  have hlinks := Mermaid.forall₂_drawn (g.report root time ds)
  rw [drawn_report, hids] at hlinks
  have hedges := (List.forall₂_and_left _ _).2 ⟨fun _ he => he, hlinks⟩
  refine hedges.imp fun e l ⟨he, hel, hcycle⟩ => ⟨hel, hcycle.trans ?_⟩
  exact mem_cycleEdges_report.trans (and_iff_right (hasEdge_of_mem_edges he))

theorem writesEdges_mermaid :
    g.WritesEdges (Mermaid.render (g.report root time ds))
      (Mermaid.linkTexts (g.report root time ds)) (Mermaid.States g.ids) fun i =>
        Mermaid.linkStyle i ∈ Mermaid.lines (g.report root time ds) := by
  have hlinks := forall₂_links g root time ds
  refine ⟨Mermaid.render_eq _, ?_, fun i => ?_⟩
  · unfold Mermaid.linkTexts
    rw [List.map_map, List.forall₂_map_right_iff]
    exact hlinks.imp fun _ _ hel => hel.1
  · rw [Mermaid.linkStyle_mem_lines, Mermaid.mem_highlighted]
    exact exists_getElem?_iff (hlinks.imp fun _ _ hel => hel.2) i

theorem writesEdges_html :
    g.WritesEdges (Html.render (g.report root time ds)) (Html.edgeTexts (g.report root time ds))
      Html.States fun i =>
        ∃ s, (Html.edgeTexts (g.report root time ds))[i]? = some s ∧ Html.Marked s := by
  refine .of_forall₂ (Html.render_eq _) ?_
  unfold Html.edgeTexts Html.drawnEdges
  rw [List.forall₂_map_right_iff]
  refine forall₂_filterMap fun e he => ?_
  have hedge := hasEdge_of_mem_edges he
  have hplace : ∀ id ∈ g.modules,
      ∃ p, (Layout.ofReport (g.report root time ds)).nodes[id]? = some p :=
    fun id hid => Layout.exists_place (ExtTreeMap.mem_map.2 hid)
  obtain ⟨source, hsource⟩ := hplace _ hedge.source_mem
  obtain ⟨target, htarget⟩ := hplace _ hedge.target_mem
  refine ⟨(e, source, target), by rw [hsource, htarget]; rfl, Html.states_edgeParts _ _ _ _, ?_⟩
  exact (Html.marked_edgeParts _ _ _ _).trans (contains_cycleEdges_report he)

/-- **A report marks the cycles of a graph.** Its edges on a cycle are those
whose target reaches their source, its modules on a cycle those that reach
themselves; every edge is listed once, and each exporter writes one statement
per listed edge and marks those of the edges on a cycle and no others. -/
structure MarksCycles (g : Graph) (r : Report) : Prop where
  cycleEdges_iff : ∀ u v, (u, v) ∈ r.cycleEdges ↔ g.HasEdge u v ∧ ReflTransGen g.HasEdge v u
  onCycle_iff : ∀ e, r.onCycle e = true ↔ e.ends ∈ r.cycleEdges
  cycleMembers_iff : ∀ m, m ∈ r.cycleMembers ↔ TransGen g.HasEdge m m
  edges_iff : ∀ u v, (u, v) ∈ g.edges.map Edge.ends ↔ g.HasEdge u v
  edges_nodup : (g.edges.map Edge.ends).Nodup
  dot : g.WritesEdges (Dot.render r) (Dot.edgeTexts r) Dot.States
    fun i => ∃ s, (Dot.edgeTexts r)[i]? = some s ∧ Dot.Marked s
  mermaid : g.WritesEdges (Mermaid.render r) (Mermaid.linkTexts r) (Mermaid.States g.ids)
    fun i => Mermaid.linkStyle i ∈ Mermaid.lines r
  html : g.WritesEdges (Html.render r) (Html.edgeTexts r) Html.States
    fun i => ∃ s, (Html.edgeTexts r)[i]? = some s ∧ Html.Marked s

/-- **Cycles, reachability and the exported edges agree** in the report of a
graph, whatever the graph. -/
theorem cycle_edges_marked : g.MarksCycles (g.report root time ds) where
  cycleEdges_iff _ _ := mem_cycleEdges_report
  onCycle_iff _ := Report.onCycle_iff
  cycleMembers_iff _ := mem_cycleMembers_report
  edges_iff _ _ := mem_map_ends_edges
  edges_nodup := map_ends_edges ▸ ExtTreeMap.nodup_keys
  dot := writesEdges_dot g root time ds
  mermaid := writesEdges_mermaid g root time ds
  html := writesEdges_html g root time ds

end Graph

end StackGraph
