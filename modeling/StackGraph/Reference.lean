import StackGraph.Ordered
/-!
# References

Mentions of other units in expressions: an output of a nested module, an output of a declared
dependency. A reference is what is written; which module it means is decided later.
-/

namespace StackGraph

open Std

/-- What a reference goes through. -/
inductive Via where
  /-- `module.name.output`. -/
  | module
  /-- `dependency.name.outputs.output`. -/
  | dependency
deriving DecidableEq, Repr

namespace Via

/-- References through modules come first. -/
def rank : Via → Nat
  | module => 0
  | dependency => 1

/-- Two kinds of reference with one place in the order are the same. -/
theorem rank_injective {a b : Via} (h : a.rank = b.rank) : a = b := by
  cases a <;> cases b <;> first | rfl | cases h

end Via

/-- A mention of an output of another unit. -/
structure Reference where
  via : Via
  /-- The name after `module.` or `dependency.`. -/
  name : String
  /-- The output that is mentioned. -/
  output : String
  /-- The reference as text, without an index. -/
  expression : String
deriving DecidableEq, Repr

namespace Reference

/-- References in the order of their fields. -/
def compare : Reference → Reference → Ordering :=
  compareLex (compareOn fun r => r.via.rank)
    (compareLex (compareOn Reference.name)
      (compareLex (compareOn Reference.output) (compareOn Reference.expression)))

instance : TransCmp compare :=
  inferInstanceAs (TransCmp (compareLex (compareOn fun r : Reference => r.via.rank)
    (compareLex (compareOn Reference.name)
      (compareLex (compareOn Reference.output) (compareOn Reference.expression)))))

instance : LawfulEqCmp compare where
  eq_of_compare {a b} h := by
    simp only [compare, compareLex, compareOn, Ordering.then_eq_eq] at h
    obtain ⟨hv, hn, ha, he⟩ := h
    cases a
    cases b
    simp only [Reference.mk.injEq]
    exact ⟨Via.rank_injective (LawfulEqCmp.eq_of_compare hv), LawfulEqCmp.eq_of_compare hn,
      LawfulEqCmp.eq_of_compare ha, LawfulEqCmp.eq_of_compare he⟩
  compare_self {a} := by
    simp [compare, compareLex, compareOn, ReflCmp.compare_self]

/-- The reference to an output of a nested module. -/
def ofModule (name output : String) : Reference :=
  ⟨.module, name, output, "module." ++ name ++ "." ++ output⟩

/-- The reference to an output of a declared dependency. -/
def ofDependency (name output : String) : Reference :=
  ⟨.dependency, name, output, "dependency." ++ name ++ ".outputs." ++ output⟩

end Reference

/-- Sets of references. -/
abbrev ReferenceSet := ExtTreeSet Reference Reference.compare

end StackGraph
