import Mathlib.Data.List.Induction
import Mathlib.Data.List.Shortlex
import StackGraph.Ordered
/-!
# Sorted sets and their order

The library states membership in a set that is made from a list through the
boolean test of the list. Here the same facts are stated through membership in
the list, which is what the proofs about the graph use; and the comparisons
that the sets are sorted by are tied to the orders that they stand for.
-/

namespace StackGraph

open Std

section Sets

variable {α : Type} {cmp : α → α → Ordering} [TransCmp cmp] [LawfulEqCmp cmp]
variable [BEq α] [LawfulBEq α]

@[simp] theorem mem_setOfList {l : List α} {a : α} : a ∈ ExtTreeSet.ofList l cmp ↔ a ∈ l := by
  rw [ExtTreeSet.mem_ofList, List.contains_iff_mem]

@[simp] theorem mem_setInsertMany {s : ExtTreeSet α cmp} {l : List α} {a : α} :
    a ∈ s.insertMany l ↔ a ∈ s ∨ a ∈ l := by
  rw [ExtTreeSet.mem_insertMany_list, List.contains_iff_mem]

omit [LawfulEqCmp cmp] [BEq α] [LawfulBEq α] in
theorem nodup_setToList {s : ExtTreeSet α cmp} : s.toList.Nodup := by
  refine ExtTreeSet.distinct_toList.imp fun {a b} hne hab => hne ?_
  rw [hab]
  exact ReflCmp.compare_self

/-- A set is made again from the list of its members. -/
theorem setOfList_toList (s : ExtTreeSet α cmp) : ExtTreeSet.ofList s.toList cmp = s :=
  ExtTreeSet.ext_mem fun _ => mem_setOfList.trans ExtTreeSet.mem_toList

end Sets

/-- A list without repetitions has one member exactly if it is that member
alone. -/
theorem eq_singleton_iff {α : Type} {l : List α} {a : α} (h : l.Nodup) :
    l = [a] ↔ ∀ b, b ∈ l ↔ b = a := by
  constructor
  · rintro rfl b
    exact List.mem_singleton
  · intro hmem
    cases l with
    | nil => exact absurd ((hmem a).2 rfl) List.not_mem_nil
    | cons b l =>
      obtain rfl := (hmem b).1 List.mem_cons_self
      refine congrArg _ (List.eq_nil_iff_forall_not_mem.2 fun c hc => ?_)
      obtain rfl := (hmem c).1 (List.mem_cons_of_mem _ hc)
      exact (List.nodup_cons.1 h).1 hc

/-- A list with two different members has at least two. -/
theorem two_le_length {α : Type} {l : List α} {a b : α} (ha : a ∈ l) (hb : b ∈ l) (hne : a ≠ b) :
    2 ≤ l.length := by
  match l with
  | [] => exact absurd ha List.not_mem_nil
  | [_] => exact absurd ((List.mem_singleton.1 ha).trans (List.mem_singleton.1 hb).symm) hne
  | _ :: _ :: _ => exact Nat.le_add_left 2 _

section Maps

variable {α β : Type} {cmp : α → α → Ordering} [TransCmp cmp]

/-- The values of a map are those of its entries, in the order of the keys. -/
theorem values_eq_map_toList (t : ExtTreeMap α β cmp) : t.values = t.toList.map Prod.snd := by
  obtain ⟨t⟩ := t
  refine t.inductionOn fun t => ?_
  show t.inner.values = (DTreeMap.Internal.Impl.Const.toList t.inner).map Prod.snd
  rw [DTreeMap.Internal.Impl.values_eq_map_snd,
    DTreeMap.Internal.Impl.Const.toList_eq_toListModel_map, List.map_map]
  rfl

variable [LawfulEqCmp cmp]

/-- An entry leaves those of other keys alone. -/
theorem getElem?_insert_of_ne {t : ExtTreeMap α β cmp} {k a : α} {v : β} (h : k ≠ a) :
    (t.insert k v)[a]? = t[a]? := by
  rw [ExtTreeMap.getElem?_insert, if_neg]
  exact fun hcmp => h (LawfulEqCmp.eq_of_compare hcmp)

/-- In a map that is made from a list the last entry of a key counts. -/
theorem getElem?_mapOfList [DecidableEq α] {l : List (α × β)} {k : α} :
    (ExtTreeMap.ofList l cmp)[k]? = ((l.filter (·.1 = k)).getLast?).map Prod.snd := by
  rw [ExtTreeMap.ofList_eq_foldl]
  induction l using List.reverseRecOn with
  | nil => simp
  | append_singleton l p ih =>
    rw [List.foldl_append, List.foldl_cons, List.foldl_nil, List.filter_append]
    by_cases hk : p.1 = k
    · subst hk
      rw [ExtTreeMap.getElem?_insert_self]
      simp
    · rw [getElem?_insert_of_ne hk, ih]
      simp [hk]

/-- The value of a key is that of an entry behind which the key is not
repeated. -/
theorem getElem?_mapOfList_eq_some_iff [DecidableEq α] {l : List (α × β)} {k : α} {v : β} :
    (ExtTreeMap.ofList l cmp)[k]? = some v
      ↔ ∃ before after, l = before ++ (k, v) :: after ∧ ∀ p ∈ after, p.1 ≠ k := by
  rw [getElem?_mapOfList, Option.map_eq_some_iff]
  constructor
  · rintro ⟨⟨k', v⟩, hlast, rfl⟩
    obtain ⟨front, hfilter⟩ := List.getLast?_eq_some_iff.1 hlast
    obtain ⟨l₁, l₂, rfl, -, hl₂⟩ := List.filter_eq_append_iff.1 hfilter
    obtain ⟨before, after, rfl, -, hk, hafter⟩ := List.filter_eq_cons_iff.1 hl₂
    obtain rfl : k' = k := by simpa using hk
    exact ⟨l₁ ++ before, after, (List.append_assoc ..).symm,
      by simpa using List.filter_eq_nil_iff.1 hafter⟩
  · rintro ⟨before, after, rfl, hafter⟩
    have hnone : after.filter (·.1 = k) = [] := List.filter_eq_nil_iff.2 (by simpa using hafter)
    refine ⟨(k, v), ?_, rfl⟩
    rw [List.filter_append, List.filter_cons_of_pos (by simp), hnone, List.getLast?_concat]

theorem mem_values {t : ExtTreeMap α β cmp} {b : β} : b ∈ t.values ↔ ∃ k : α, t[k]? = some b := by
  rw [values_eq_map_toList, List.mem_map]
  constructor
  · rintro ⟨⟨k, _⟩, hmem, rfl⟩
    exact ⟨k, ExtTreeMap.mem_toList_iff_getElem?_eq_some.1 hmem⟩
  · rintro ⟨k, hk⟩
    exact ⟨(k, b), ExtTreeMap.mem_toList_iff_getElem?_eq_some.2 hk, rfl⟩

/-- A map is made again from the list of its entries. -/
theorem mapOfList_toList [BEq α] [LawfulBEq α] (t : ExtTreeMap α β cmp) :
    ExtTreeMap.ofList t.toList cmp = t := by
  refine ExtTreeMap.ext_getElem? fun k => ?_
  cases hk : t[k]? with
  | some b =>
    exact ExtTreeMap.getElem?_ofList_of_mem ReflCmp.compare_self
      ExtTreeMap.distinct_keys_toList (ExtTreeMap.mem_toList_iff_getElem?_eq_some.2 hk)
  | none =>
    have hnot : k ∉ t.toList.map Prod.fst := by
      rw [ExtTreeMap.map_fst_toList_eq_keys, ExtTreeMap.mem_keys]
      rw [ExtTreeMap.mem_iff_isSome_getElem?, hk]
      exact Bool.false_ne_true
    exact ExtTreeMap.getElem?_ofList_of_contains_eq_false (by simpa using hnot)

end Maps

/-! ## Sorted lists -/

section Sorted

variable {α : Type} {cmp : α → α → Ordering} {xs : List α}

/-- Sorting keeps every element as often as it is there. -/
theorem perm_sortBy : (sortBy cmp xs).Perm xs := List.mergeSort_perm xs _

@[simp] theorem mem_sortBy {x : α} : x ∈ sortBy cmp xs ↔ x ∈ xs := perm_sortBy.mem_iff

/-- A sorted list is in order. -/
theorem pairwise_isLE_sortBy [TransCmp cmp] :
    (sortBy cmp xs).Pairwise fun a b => (cmp a b).isLE := by
  refine List.pairwise_mergeSort (fun a b c => TransCmp.isLE_trans) (fun a b => ?_) xs
  have hswap : cmp b a = (cmp a b).swap := OrientedCmp.eq_swap
  rw [hswap]
  cases cmp a b <;> rfl

/-- Elements of which no two are equal in the order are sorted strictly. -/
theorem pairwise_lt_sortBy [TransCmp cmp] (h : xs.Nodup)
    (hinj : ∀ a ∈ xs, ∀ b ∈ xs, cmp a b = .eq → a = b) :
    (sortBy cmp xs).Pairwise (cmp · · = .lt) := by
  -- what is not later is earlier or equal, and equal elements do not occur
  refine (pairwise_isLE_sortBy.and (perm_sortBy.nodup_iff.2 h)).imp_of_mem fun {a b} ha hb hab => ?_
  rcases hc : cmp a b with _ | _ | _
  · rfl
  · exact absurd (hinj a (mem_sortBy.1 ha) b (mem_sortBy.1 hb) hc) hab.2
  · rw [hc] at hab
    exact absurd hab.1 (by decide)

/-- **A list without repetitions is sorted strictly.** -/
theorem pairwise_sortBy [TransCmp cmp] [LawfulEqCmp cmp] (h : xs.Nodup) :
    (sortBy cmp xs).Pairwise (cmp · · = .lt) :=
  pairwise_lt_sortBy h fun _ _ _ _ => LawfulEqCmp.eq_of_compare

end Sorted

/-! ## Names and lists of names in order -/

theorem compareName_eq_lt {a b : String} : compare a b = .lt ↔ a < b :=
  compareOfLessAndEq_eq_lt

/-- The comparison of lists of names is the lexicographic order. -/
theorem compareList_eq_lt {as bs : List String} : compareList compare as bs = .lt ↔ as < bs := by
  induction as generalizing bs with
  | nil => cases bs <;> simp [compareList]
  | cons a as ih =>
    cases bs with
    | nil => simp [compareList]
    | cons b bs =>
      rw [compareList, Ordering.then_eq_lt, compareName_eq_lt, ih, LawfulEqCmp.compare_eq_iff_eq,
        List.cons_lt_cons_iff]

instance : TransCmp compareByLength :=
  inferInstanceAs (TransCmp (compareLex (compareOn List.length) (compareList compare)))

instance : LawfulEqCmp compareByLength where
  eq_of_compare h := LawfulEqCmp.eq_of_compare (Ordering.then_eq_eq.1 h).2
  compare_self := by simp [compareByLength, ReflCmp.compare_self]

/-- **The order of lists by length** is the shortlex order on names. -/
theorem compareByLength_eq_lt {as bs : List String} :
    compareByLength as bs = .lt ↔ List.Shortlex (· < ·) as bs := by
  rw [compareByLength, Ordering.then_eq_lt, Nat.compare_eq_lt, Nat.compare_eq_eq,
    compareList_eq_lt, List.shortlex_def]
  rfl

end StackGraph
