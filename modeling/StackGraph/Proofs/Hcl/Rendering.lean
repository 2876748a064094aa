import Mathlib.Data.List.Infix
import StackGraph.Hcl.Format
/-!
# What the text of an expression shows

Lists, objects and parentheses are written with what stands in them between
their brackets, so the text of an expression holds the text of every expression
that stands in it, however deep (`Hcl.Expr.Stands.shownIn_textIn`). The same
expression is not always written in the same way: lines are indented as deep
as they stand, and a text with interpolations keeps its quotes only as a part
of another expression. All ways are collected in `Hcl.Expr.Renders`.
-/

namespace StackGraph

namespace Text

variable {s t u : String}

/-- **A text is part of another one**, without a gap. -/
def Within (s t : String) : Prop := s.toList <:+: t.toList

instance : Decidable (Within s t) := inferInstanceAs (Decidable (s.toList <:+: t.toList))

theorem Within.refl (s : String) : Within s s := List.infix_rfl

theorem Within.trans (h : Within s t) (h' : Within t u) : Within s u := List.IsInfix.trans h h'

theorem within_append_left (s t : String) : Within s (s ++ t) := by
  rw [Within, String.toList_append]
  exact (List.prefix_append _ _).isInfix

theorem within_append_right (s t : String) : Within t (s ++ t) := by
  rw [Within, String.toList_append]
  exact (List.suffix_append _ _).isInfix

/-- The text between two others is part of the whole. -/
theorem within_between (before s after : String) : Within s (before ++ s ++ after) :=
  (within_append_right before s).trans (within_append_left _ after)

end Text

namespace Hcl

open Text

/-! ## Items between brackets -/

namespace Setting

variable {s : Setting} {item : String} {empty : Bool} {items : List (String × Bool)}

theorem within_separated {start between : String} {first : Bool} (h : (item, empty) ∈ items) :
    Within item (separated start between first items) := by
  induction items generalizing first with
  | nil => exact absurd h List.not_mem_nil
  | cons head items ih =>
    obtain ⟨head, isEmpty⟩ := head
    rw [separated]
    rcases List.mem_cons.1 h with heq | h
    · cases heq
      exact within_between _ item _
    · exact (ih h).trans (within_append_right _ _)

theorem within_list (h : (item, empty) ∈ items) : Within item (s.list items) := by
  rw [list, if_neg (by simpa using List.ne_nil_of_mem h)]
  split
  · exact (within_separated h).trans (within_between _ _ _)
  · rw [String.append_assoc]
    exact (within_separated h).trans (within_between _ _ _)

theorem within_object (h : (item, empty) ∈ items) : Within item (s.object items) := by
  rw [object, if_neg (by simpa using List.ne_nil_of_mem h)]
  split
  · exact (within_separated h).trans (within_between _ _ _)
  · rw [String.append_assoc]
    exact (within_separated h).trans (within_between _ _ _)

end Setting

theorem itemTextsIn_eq_map {s : Setting} {items : List Expr} :
    itemTextsIn s items = items.map fun e => (e.textIn s, e.lastIsEmpty? == some true) := by
  induction items with
  | nil => rfl
  | cons e items ih => rw [itemTextsIn, ih, List.map_cons]

theorem entryTextsIn_eq_map {s : Setting} {entries : List Entry} :
    entryTextsIn s entries = entries.map fun e => (e.textIn s, e.lastIsEmpty? == some true) := by
  induction entries with
  | nil => rfl
  | cons e entries ih => rw [entryTextsIn, ih, List.map_cons]

theorem Expr.textIn_list (s : Setting) (items : List Expr) :
    (Expr.list items).textIn s
      = s.list (items.map fun e => (e.textIn s.inner, e.lastIsEmpty? == some true)) := by
  rw [← itemTextsIn_eq_map]
  rfl

theorem Expr.textIn_object (s : Setting) (entries : List Entry) :
    (Expr.object entries).textIn s
      = s.object (entries.map fun e => (e.textIn s.inner, e.lastIsEmpty? == some true)) := by
  rw [← entryTextsIn_eq_map]
  rfl

/-- The value of an entry is written at its end. -/
theorem Entry.within_textIn (s : Setting) (entry : Entry) :
    Within (entry.value.textIn s) (entry.textIn s) := by
  cases entry with
  | named key value => exact within_append_right _ _
  | keyed key value => exact within_append_right _ _

/-! ## What stands in an expression -/

/-- **An expression stands in another one**: as the whole of it, between
parentheses, as an item of a list, or as the key or the value of an entry of an
object. -/
inductive Expr.Stands (e : Expr) : Expr → Prop
  | self : Stands e e
  | parens {inner : Expr} (h : Stands e inner) : Stands e (.parens inner)
  | item {items : List Expr} {item : Expr} (hitem : item ∈ items) (h : Stands e item) :
    Stands e (.list items)
  | key {entries : List Entry} {key value : Expr} (hentry : .keyed key value ∈ entries)
    (h : Stands e key) : Stands e (.object entries)
  | value {entries : List Entry} {entry : Entry} (hentry : entry ∈ entries)
    (h : Stands e entry.value) : Stands e (.object entries)

/-- **The texts that an expression is written as.** -/
inductive Expr.Renders : Expr → String → Prop
  /-- As a part of another expression, at some depth. -/
  | whole (e : Expr) (depth : Nat) : Renders e (e.textIn ⟨false, depth⟩)
  /-- A text with interpolations on its own, without its delimiters. -/
  | bare (frame : Frame) (text : String) : Renders (.template frame text) text
  /-- Parentheses around one of the two. -/
  | parens {inner : Expr} {text : String} (h : Renders inner text) :
    Renders (.parens inner) ("(" ++ text ++ ")")

/-- **A text shows an expression**: one of the texts that it is written as is
part of it. -/
def Expr.ShownIn (e : Expr) (t : String) : Prop := ∃ text, e.Renders text ∧ Within text t

theorem Expr.ShownIn.within {e : Expr} {t u : String} (h : e.ShownIn t) (htu : Within t u) :
    e.ShownIn u := by
  obtain ⟨text, htext, hwithin⟩ := h
  exact ⟨text, htext, hwithin.trans htu⟩

/-- **The text of an expression shows every expression that stands in it.** By
induction on where it stands; behind each bracket lines are indented one level
more. -/
theorem Expr.Stands.shownIn_textIn {e outer : Expr} (h : e.Stands outer) (depth : Nat) :
    e.ShownIn (outer.textIn ⟨false, depth⟩) := by
  induction h generalizing depth with
  | self => exact ⟨_, .whole e depth, .refl _⟩
  | parens _ ih => exact (ih depth).within (within_between _ _ _)
  | item hitem _ ih =>
    rw [Expr.textIn_list]
    exact (ih (depth + 1)).within (Setting.within_list (List.mem_map_of_mem hitem))
  | key hentry _ ih =>
    rw [Expr.textIn_object]
    refine ((ih (depth + 1)).within ?_).within (Setting.within_object (List.mem_map_of_mem hentry))
    exact (within_append_left _ _).trans (within_append_left _ _)
  | value hentry _ ih =>
    rw [Expr.textIn_object]
    refine ((ih (depth + 1)).within ?_).within (Setting.within_object (List.mem_map_of_mem hentry))
    exact Entry.within_textIn _ _

end Hcl

end StackGraph
