import Std.Data.ExtTreeMap
import Std.Data.ExtTreeSet
/-!
# Sorted sets and maps

Sets and maps whose elements come out in one fixed order, so that no answer depends on the order in
which things were found. Strings are in lexicographic order of their code points, which is the order
of their UTF-8 bytes; pairs compare their first components first.

Two such sets with the same members are equal, and so are two maps with the same entries.
-/

namespace StackGraph

open Std

/-- Sets of names. -/
abbrev NameSet := ExtTreeSet String compare

/-- Maps from names. -/
abbrev NameMap (β : Type) := ExtTreeMap String β compare

/-- Pairs of names in lexicographic order. -/
def comparePair : String × String → String × String → Ordering :=
  compareLex (compareOn Prod.fst) (compareOn Prod.snd)

instance : TransCmp comparePair :=
  inferInstanceAs (TransCmp (compareLex (compareOn Prod.fst) (compareOn Prod.snd)))

instance : LawfulEqCmp comparePair where
  eq_of_compare {a b} h := by
    simp only [comparePair, compareLex, compareOn, Ordering.then_eq_eq] at h
    exact Prod.ext (LawfulEqCmp.eq_of_compare h.1) (LawfulEqCmp.eq_of_compare h.2)
  compare_self {a} := by
    simp [comparePair, compareLex, compareOn, ReflCmp.compare_self]

/-- Sets of pairs of names. -/
abbrev PairSet := ExtTreeSet (String × String) comparePair

/-- Lists in lexicographic order: a list comes before its continuations. -/
def compareList {α : Type} (cmp : α → α → Ordering) : List α → List α → Ordering
  | [], [] => .eq
  | [], _ :: _ => .lt
  | _ :: _, [] => .gt
  | a :: as, b :: bs => (cmp a b).then (compareList cmp as bs)

/-- The order of lists is the lexicographic one of the standard library. -/
theorem compareList_eq_compareLex {α : Type} (cmp : α → α → Ordering) :
    compareList cmp = List.compareLex cmp := by
  funext as bs
  induction as generalizing bs with
  | nil => cases bs <;> rfl
  | cons a as ih =>
    cases bs with
    | nil => rfl
    | cons b bs => rw [compareList, ih, List.compareLex_cons_cons]

instance {α : Type} {cmp : α → α → Ordering} [TransCmp cmp] : TransCmp (compareList cmp) := by
  rw [compareList_eq_compareLex]
  infer_instance

instance {α : Type} {cmp : α → α → Ordering} [LawfulEqCmp cmp] :
    LawfulEqCmp (compareList cmp) := by
  rw [compareList_eq_compareLex]
  infer_instance

/-- Absent values come before present ones. -/
def compareOption {α : Type} (cmp : α → α → Ordering) : Option α → Option α → Ordering
  | none, none => .eq
  | none, some _ => .lt
  | some _, none => .gt
  | some a, some b => cmp a b

/-- Shorter lists come first, lists of one length in lexicographic order. -/
def compareByLength (a b : List String) : Ordering :=
  (compare a.length b.length).then (compareList compare a b)

/-- A list sorted by a comparison; equal elements keep their order. -/
def sortBy {α : Type} (cmp : α → α → Ordering) (xs : List α) : List α :=
  xs.mergeSort fun a b => (cmp a b).isLE

end StackGraph
