import StackGraph.Proofs.Digits
import StackGraph.Proofs.Export.EdgeStatements
import StackGraph.Proofs.Export.Lines
/-!
# No text becomes markup

The page is put together from fixed markup, which is written as it is, and from
what the report holds: its texts are escaped, and its numbers and its time are
made of characters that mean nothing in HTML. So each of the characters that do
mean something stands only where the markup has it, and it is enough to count
them there: every edge that is drawn adds the same number of them, and so does
every node and every listed cycle, whatever their names are and however they
are marked (`Html.count_outside`). The data of the graph is left out of the
count, as it is a text for the script of the page.

For two reports of one shape the counts are therefore the same
(`Html.count_outside_eq`).
-/

namespace StackGraph

/-! ## Characters without a meaning -/

/-- The characters that begin or end a tag or an attribute. -/
def Html.markupChars : List Char := ['<', '>', '"']

variable {c : Char}

theorem Html.mem_markupChars : c ∈ Html.markupChars ↔ c = '<' ∨ c = '>' ∨ c = '"' := by
  simp [markupChars]

/-- A text without these characters has none of them. -/
theorem Html.not_mem_of_all {s : String}
    (hs : s.toList.all (!Html.markupChars.contains ·) = true) (h : c ∈ Html.markupChars) :
    c ∉ s.toList := by
  intro hc
  have hnot := List.all_eq_true.1 hs c hc
  simp [h] at hnot

theorem Html.not_isDigit_of_mem (h : c ∈ Html.markupChars) : c.isDigit = false := by
  rcases Html.mem_markupChars.1 h with rfl | rfl | rfl <;> rfl

/-- **Escaped text has no character of markup.** -/
theorem Text.not_mem_htmlEscape {s : String} (h : c ∈ Html.markupChars) :
    c ∉ (htmlEscape s).toList := by
  rw [htmlEscape, escape, String.toList_ofList, List.mem_flatMap]
  rintro ⟨d, -, hd⟩
  unfold htmlChar at hd
  split at hd
  case h_6 =>
    -- a character that is written as it is is none of those with an entity
    obtain rfl := List.mem_singleton.1 hd
    simp_all [Html.markupChars]
  all_goals
    revert hd
    rcases Html.mem_markupChars.1 h with rfl | rfl | rfl <;> decide

theorem not_mem_toDigits (h : c ∈ Html.markupChars) (n : Nat) : c ∉ Nat.toDigits 10 n :=
  fun hc => ne_true_of_eq_false (Html.not_isDigit_of_mem h) (Text.isDigit_of_mem_toDigits hc)

theorem not_mem_toString (h : c ∈ Html.markupChars) (z : Int) : c ∉ (toString z).toList := by
  cases z with
  | ofNat n =>
    show c ∉ (toString n).toList
    rw [Nat.toString_eq_ofList_toDigits, String.toList_ofList]
    exact not_mem_toDigits h n
  | negSucc n =>
    show c ∉ ("-" ++ toString (n + 1)).toList
    rw [String.toList_append, List.mem_append, not_or, Nat.toString_eq_ofList_toDigits]
    refine ⟨by rcases Html.mem_markupChars.1 h with rfl | rfl | rfl <;> decide, ?_⟩
    rw [String.toList_ofList]
    exact not_mem_toDigits h (n + 1)

namespace Timestamp

theorem not_mem_padded (h : c ∈ Html.markupChars) {width n : Nat} :
    c ∉ (padded width n).toList :=
  fun hc => ne_true_of_eq_false (Html.not_isDigit_of_mem h) (isDigit_of_mem_padded hc)

theorem not_mem_fraction (h : c ∈ Html.markupChars) {nanos : Nat} :
    c ∉ (fraction nanos).toList := by
  have hpoint : c ∉ ".".toList := Html.not_mem_of_all (by decide) h
  unfold fraction
  dsimp only
  split
  · exact List.not_mem_nil
  · split_ifs
    all_goals
      rw [String.toList_append, List.mem_append, not_or]
      exact ⟨hpoint, not_mem_padded h⟩

theorem not_mem_yearText (h : c ∈ Html.markupChars) {year : Int} :
    c ∉ (yearText year).toList := by
  rw [yearText, String.toList_append, List.mem_append, not_or]
  refine ⟨?_, not_mem_padded h⟩
  split_ifs
  all_goals
    rcases Html.mem_markupChars.1 h with rfl | rfl | rfl <;> decide

/-- **A point in time has no character of markup.** -/
theorem not_mem_text (h : c ∈ Html.markupChars) (t : Timestamp) :
    c ∉ (t.text "+00:00").toList := by
  have hdash : c ∉ "-".toList := Html.not_mem_of_all (by decide) h
  have hletter : c ∉ "T".toList := Html.not_mem_of_all (by decide) h
  have hcolon : c ∉ ":".toList := Html.not_mem_of_all (by decide) h
  have hzone : c ∉ "+00:00".toList := Html.not_mem_of_all (by decide) h
  unfold text
  simp only [String.toList_append, List.mem_append, not_or]
  simp only [hdash, hletter, hcolon, hzone, not_mem_padded h, not_mem_fraction h,
    not_mem_yearText h, not_false_eq_true, and_self]

end Timestamp

namespace Html

/-! ## The markup of a part -/

/-- What remains of a part without the contents of the report. -/
def Part.frame : Part → List Char
  | .markup s => s.toList
  | .text _ | .number _ | .time _ => []
  | .data s => s.toList

/-- How often a character stands in some parts. -/
def countIn (c : Char) (parts : List Part) : Nat := (renderAll parts).toList.count c

theorem countIn_append {ps qs : List Part} :
    countIn c (ps ++ qs) = countIn c ps + countIn c qs := by
  rw [countIn, renderAll_append, String.toList_append, List.count_append, countIn, countIn]

/-- A character of markup stands only in the frame of a part. -/
theorem count_render (h : c ∈ markupChars) (p : Part) :
    p.render.toList.count c = p.frame.count c := by
  cases p with
  | markup s => rfl
  | data s => rfl
  | text s => exact List.count_eq_zero.2 (Text.not_mem_htmlEscape h)
  | number z => exact List.count_eq_zero.2 (not_mem_toString h z)
  | time t => exact List.count_eq_zero.2 (t.not_mem_text h)

/-- **The characters of markup in some parts** are those of their frames. -/
theorem countIn_eq (h : c ∈ markupChars) (parts : List Part) :
    countIn c parts = (parts.flatMap Part.frame).count c := by
  induction parts with
  | nil => rfl
  | cons p ps ih =>
    rw [countIn, renderAll, List.map_cons, String.join_cons, String.toList_append,
      List.count_append, count_render h, List.flatMap_cons, List.count_append, ← ih, countIn,
      renderAll]

/-- Parts that all have the same markup are counted by their number. -/
theorem countIn_flatMap {α : Type} {f : α → List Part} {k : Nat} {xs : List α}
    (h : ∀ x ∈ xs, countIn c (f x) = k) : countIn c (xs.flatMap f) = xs.length * k := by
  induction xs with
  | nil => rw [List.length_nil, Nat.zero_mul]; rfl
  | cons x xs ih =>
    rw [List.flatMap_cons, countIn_append, h x List.mem_cons_self,
      ih fun y hy => h y (List.mem_cons_of_mem _ hy), List.length_cons, Nat.succ_mul, Nat.add_comm]

/-- The markup of an edge: one tag with five attributes. -/
def edgeCount (c : Char) : Nat := if c = '"' then 10 else 1

/-- The markup of a node: seven tags with nine attributes. -/
def nodeCount (c : Char) : Nat := if c = '"' then 18 else 7

/-- The markup of an item of a list, or of the time: two tags. -/
def itemCount (c : Char) : Nat := if c = '"' then 0 else 2

/-- The markup around the list of cycles: four tags. -/
def listCount (c : Char) : Nat := if c = '"' then 0 else 4

/-- The markup of the counts at the top of the page: eight tags with one
attribute. -/
def statsCount (c : Char) : Nat := if c = '"' then 2 else 8

/-- The names of classes have no character of markup. -/
theorem count_classes (h : c ∈ markupChars) {classes : List String}
    (hclasses : classes ⊆ ["edge", "inferred", "node", "stub", "isolated", "cycle"]) :
    (" ".intercalate classes).toList.count c = 0 := by
  have hnames : ∀ name ∈ ["edge", "inferred", "node", "stub", "isolated", "cycle"],
      c ∉ name.toList := by
    rcases mem_markupChars.1 h with rfl | rfl | rfl <;> decide +kernel
  have hseparator : c ∉ " ".toList := by
    rcases mem_markupChars.1 h with rfl | rfl | rfl <;> decide
  refine List.count_eq_zero.2 fun hc => ?_
  obtain ⟨name, hname, hmem⟩ := (Text.mem_intercalate_iff hseparator).1 hc
  exact hnames name (hclasses hname) hmem

/-- **Every edge has the same markup**, of whatever kind it is and whether it
is marked or not. -/
theorem countIn_edgeParts (h : c ∈ markupChars) {e : Edge} {source target : Layout.Placement}
    {onCycle : Bool} : countIn c (edgeParts e source target onCycle) = edgeCount c := by
  have hclasses : (" ".intercalate (["edge"] ++ (if e.kind = .inferred then ["inferred"] else []) ++
      (if onCycle then ["cycle"] else []))).toList.count c = 0 :=
    count_classes h (by split <;> split <;> simp)
  have harrow : (if onCycle then "arrow-cycle" else "arrow").toList.count c = 0 := by
    rcases mem_markupChars.1 h with rfl | rfl | rfl <;> cases onCycle <;> decide +kernel
  rw [countIn_eq h]
  simp only [edgeParts, List.flatMap_cons, List.flatMap_nil, Part.frame, String.toList_append,
    List.count_append, hclasses, harrow, String.reduceToList]
  rcases mem_markupChars.1 h with rfl | rfl | rfl <;> decide

/-- **Every node has the same markup**, whatever its module is. -/
theorem countIn_nodeParts (h : c ∈ markupChars) {id : String} {m : ModuleReport}
    {p : Layout.Placement} {onCycle : Bool} :
    countIn c (nodeParts id m p onCycle) = nodeCount c := by
  have hclasses : (" ".intercalate (["node"] ++ (if m.stub then ["stub"] else []) ++
      (if m.dependencies.isEmpty && m.dependents.isEmpty then ["isolated"] else []) ++
      (if onCycle then ["cycle"] else []))).toList.count c = 0 :=
    count_classes h (by split <;> split <;> split <;> simp)
  rw [countIn_eq h]
  simp only [nodeParts, List.flatMap_cons, List.flatMap_nil, Part.frame, String.toList_append,
    List.count_append, hclasses, String.reduceToList]
  rcases mem_markupChars.1 h with rfl | rfl | rfl <;> decide

/-! ## The page -/

/-- The page up to the data of the graph. -/
def front (r : Report) : String := renderAll (beforeData r (Layout.ofReport r))

/-- The page behind the data of the graph. -/
def back : String := renderAll afterData

theorem render_eq_front_append (r : Report) :
    render r = front r ++ payload r (Layout.ofReport r) ++ back := by
  have hdata : renderAll (.data (payload r (Layout.ofReport r)) :: afterData)
      = payload r (Layout.ofReport r) ++ back := by
    rw [renderAll, List.map_cons, String.join_cons, back, renderAll, Part.render]
  rw [render, page, renderAll_append, hdata, front, String.append_assoc]

/-- **The shape of a page**: how much there is on it. -/
structure Shape where
  /-- The number of edges that are drawn. -/
  edges : Nat
  /-- The number of nodes that are drawn. -/
  nodes : Nat
  /-- The number of cycles that are listed. -/
  cycles : Nat
  /-- Whether it tells the time. -/
  timed : Bool
deriving DecidableEq, Repr

/-- The shape of the page of a report. -/
def shape (r : Report) : Shape where
  edges := (drawnEdges r (Layout.ofReport r)).length
  nodes := (drawnNodes r (Layout.ofReport r)).length
  cycles := r.cycles.length
  timed := r.generatedAt.isSome

theorem countIn_title (h : c ∈ markupChars) {r : Report} : countIn c (title r) = 0 := by
  rw [countIn_eq h]
  rfl

/-- The counts at the top of the page have the same markup, but for the time. -/
theorem countIn_stats (h : c ∈ markupChars) {r : Report} :
    countIn c (stats r)
      = statsCount c + if r.generatedAt.isSome then itemCount c else 0 := by
  have hclass : (if r.hasCycles then "bad" else "ok").toList.count c = 0 := by
    generalize r.hasCycles = hasCycles
    rcases mem_markupChars.1 h with rfl | rfl | rfl <;> cases hasCycles <;> decide +kernel
  cases htime : r.generatedAt
  all_goals
    rw [countIn_eq h]
    simp only [stats, htime, List.flatMap_append, List.flatMap_cons, List.flatMap_nil, Part.frame,
      String.toList_append, List.count_append, hclass, String.reduceToList, Option.isSome_none,
      Option.isSome_some]
    rcases mem_markupChars.1 h with rfl | rfl | rfl <;> decide

/-- The list of cycles has markup for each cycle, and none at all without a
cycle. -/
theorem countIn_cycleList (h : c ∈ markupChars) {r : Report} :
    countIn c (cycleList r)
      = r.cycles.length * itemCount c + if r.cycles.length = 0 then 0 else listCount c := by
  have hitem : ∀ cycle : Cycle,
      countIn c [.markup "<li>", .text cycle.text, .markup "</li>\n"] = itemCount c := by
    intro cycle
    rw [countIn_eq h]
    simp only [List.flatMap_cons, List.flatMap_nil, Part.frame, String.reduceToList]
    rcases mem_markupChars.1 h with rfl | rfl | rfl <;> decide
  have hlist : countIn c [.markup "<h2>Circular dependencies</h2>\n<ol>\n"]
      + countIn c [.markup "</ol>\n"] = listCount c := by
    rw [countIn_eq h, countIn_eq h]
    simp only [List.flatMap_cons, List.flatMap_nil, Part.frame, String.reduceToList]
    rcases mem_markupChars.1 h with rfl | rfl | rfl <;> decide
  unfold cycleList Report.hasCycles
  by_cases hnil : r.cycles = []
  · simp [hnil, countIn, renderAll]
  · rw [if_pos (by simpa using hnil), if_neg (by simpa using hnil), countIn_append, countIn_append,
      countIn_flatMap fun cycle _ => hitem cycle, ← hlist]
    omega

/-! ### All of the page -/

/-- A report that says nothing. -/
def nothing : Report where
  scanRoot := ⟨""⟩
  generatedAt := none
  modules := ∅
  edges := []
  cycles := []
  paths := ∅
  totalModules := 0
  totalDependencies := 0
  totalCycles := 0
  advice := []
  impact := ⟨[], ∅, []⟩
  complexity := ⟨[], [], []⟩
  layers := []
  diagnostics := []

theorem drawnNodes_nothing {layout : Layout} : drawnNodes nothing layout = [] := by
  refine List.filterMap_eq_nil_iff.2 fun p _ => ?_
  rfl

/-- A drawing has the same markup as one of nothing, and more for each edge and
each node. -/
theorem countIn_drawing (h : c ∈ markupChars) {r : Report} {layout layout' : Layout} :
    countIn c (drawing r layout) = countIn c (drawing nothing layout')
      + (drawnEdges r layout).length * edgeCount c
      + (drawnNodes r layout).length * nodeCount c := by
  have hnone : drawnEdges nothing = fun _ => [] := rfl
  -- the size of the drawing is a number
  have hsize : countIn c (drawing nothing layout) = countIn c (drawing nothing layout') := by
    rw [countIn_eq h, countIn_eq h]
    simp only [drawing, List.flatMap_append, List.flatMap_cons, Part.frame, hnone,
      drawnNodes_nothing]
  rw [← hsize]
  unfold drawing
  simp only [countIn_append, hnone, drawnNodes_nothing, List.flatMap_nil]
  rw [countIn_flatMap fun e _ => countIn_edgeParts h,
    countIn_flatMap fun n _ => countIn_nodeParts h]
  have hnil : countIn c [] = 0 := rfl
  omega

/-- **The page of a report has the same markup as one of nothing**, and more
for each thing on it. -/
theorem countIn_beforeData (h : c ∈ markupChars) {r : Report} {layout layout' : Layout} :
    countIn c (beforeData r layout) = countIn c (beforeData nothing layout')
      + (drawnEdges r layout).length * edgeCount c
      + (drawnNodes r layout).length * nodeCount c
      + (r.cycles.length * itemCount c + if r.cycles.length = 0 then 0 else listCount c)
      + if r.generatedAt.isSome then itemCount c else 0 := by
  have hstats : countIn c (stats nothing) = statsCount c := countIn_stats h
  have hlist : countIn c (cycleList nothing) = 0 := rfl
  simp only [beforeData, countIn_append, countIn_title h, hstats, hlist]
  rw [countIn_stats h, countIn_cycleList h, @countIn_drawing c h r layout layout']
  omega

/-- The markup of the things on a page. -/
def Shape.count (c : Char) (s : Shape) : Nat :=
  s.edges * edgeCount c + s.nodes * nodeCount c
    + (s.cycles * itemCount c + if s.cycles = 0 then 0 else listCount c)
    + if s.timed then itemCount c else 0

/-- **How often a character of markup stands outside the data** is known from
the shape of the page. -/
theorem count_outside (h : c ∈ markupChars) (r : Report) :
    (front r ++ back).toList.count c = (front nothing ++ back).toList.count c
      + (shape r).count c := by
  have hfront := @countIn_beforeData c h r (Layout.ofReport r) (Layout.ofReport nothing)
  have hshape : (shape r).count c = (drawnEdges r (Layout.ofReport r)).length * edgeCount c
      + (drawnNodes r (Layout.ofReport r)).length * nodeCount c
      + (r.cycles.length * itemCount c + if r.cycles.length = 0 then 0 else listCount c)
      + if r.generatedAt.isSome then itemCount c else 0 := rfl
  rw [String.toList_append, String.toList_append, List.count_append, List.count_append]
  show countIn c (beforeData r _) + _ = countIn c (beforeData nothing _) + _ + _
  omega

/-- **No text of a report becomes markup.** If the pages of two reports have the
same shape, then outside the data of the graph each character of markup stands
in both of them equally often, whatever their modules, their cycles and their
scan roots are called. -/
theorem count_outside_eq (r r' : Report) (h : shape r = shape r') :
    render r = front r ++ payload r (Layout.ofReport r) ++ back
      ∧ render r' = front r' ++ payload r' (Layout.ofReport r') ++ back
      ∧ ∀ c ∈ markupChars,
        (front r ++ back).toList.count c = (front r' ++ back).toList.count c := by
  refine ⟨render_eq_front_append r, render_eq_front_append r', fun c hc => ?_⟩
  rw [count_outside hc r, count_outside hc r', h]

/-- Two modules that need each other, in a directory that is called like the
first one. -/
def needingEachOther (a b : String) : Report :=
  { nothing with
    scanRoot := ⟨a⟩
    generatedAt := some ⟨0, 0⟩
    modules := Std.ExtTreeMap.ofList
      [(a, ⟨a, ⟨a⟩, [b], [b], [b], [], [], [], [], [], [], ∅, [], [], false, 3⟩),
        (b, ⟨b, ⟨b⟩, [a], [a], [a], [], [], [], [], [], [], ∅, [], [], true, 3⟩)] compare
    edges := [⟨a, b, .explicit, {.explicit}⟩, ⟨b, a, .inferred, {.inferred}⟩]
    cycles := [⟨[a, b, a]⟩]
    layers := [[a], [b]] }

/-- Plain names and names full of markup give the same markup. -/
theorem count_outside_eq_needingEachOther :
    shape (needingEachOther "app" "net") = shape (needingEachOther "<b id=\"x\">" "</title>")
      ∧ ∀ c ∈ markupChars, (front (needingEachOther "app" "net") ++ back).toList.count c
        = (front (needingEachOther "<b id=\"x\">" "</title>") ++ back).toList.count c := by
  have hshape : shape (needingEachOther "app" "net")
      = shape (needingEachOther "<b id=\"x\">" "</title>") := by
    decide +kernel
  exact ⟨hshape, (count_outside_eq _ _ hshape).2.2⟩

end Html

end StackGraph
