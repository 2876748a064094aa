import Mathlib.Data.List.Sort
import StackGraph.Proofs.Build.Evidence
/-!
# The diagnostics of a build

At the end the diagnostics of the files, of the modules and of the links of
modules to themselves are sorted and repetitions are dropped, which loses none
(`Diagnostic.mem_arrange`). Of several links of one module to itself only the
first is reported, so what is known about such a link is that one of its
module and kind is reported (`Graph.exists_selfReference_of_link`).
-/

namespace StackGraph

open Std

namespace Diagnostic

variable {d : Diagnostic} {ds : List Diagnostic}

theorem mem_dedup : d ∈ dedup ds ↔ d ∈ ds := by
  induction ds with
  | nil => rfl
  | cons e ds ih =>
    cases ds with
    | nil => rfl
    | cons e' ds =>
      rw [dedup]
      split
      · rename_i hsame
        rw [ih, hsame]
        simp
      · rw [List.mem_cons, ih]
        exact List.mem_cons.symm

/-- **Arranging diagnostics loses none and adds none.** -/
@[simp] theorem mem_arrange : d ∈ arrange ds ↔ d ∈ ds := by
  rw [arrange, mem_dedup, sortBy, List.mem_mergeSort]

/-! ### The order of diagnostics

Diagnostics are ordered by all of their fields, so a list that is in order and
free of repetitions is known from its members. -/

theorem compareOption_eq_compare {α : Type} [Ord α] :
    compareOption (Ord.compare : α → α → Ordering) = Ord.compare := by
  funext a b
  cases a <;> cases b <;> rfl

/-- Diagnostics are compared field by field. -/
theorem compare_eq_compareLex :
    compare = compareLex (compareLex (compareLex (compareLex (compareOn path) (compareOn module))
      (compareOn fun d => d.kind.rank)) (compareOn message))
      (compareOn fun d => d.severity.rank) := by
  unfold compare
  rw [compareOption_eq_compare]
  rfl

instance : TransCmp compare := by
  rw [compare_eq_compareLex]
  infer_instance

instance : LawfulEqCmp compare where
  eq_of_compare {a b} h := by
    have hkind : ∀ {k l : DiagnosticKind}, k.rank = l.rank → k = l := by
      intro k l
      cases k <;> cases l <;> decide
    have hseverity : ∀ {s t : Severity}, s.rank = t.rank → s = t := by
      intro s t
      cases s <;> cases t <;> decide
    simp only [compare_eq_compareLex, compareLex, compareOn, Ordering.then_eq_eq] at h
    obtain ⟨⟨⟨⟨hp, hm⟩, hk⟩, ht⟩, hs⟩ := h
    cases a
    cases b
    simp only [Diagnostic.mk.injEq]
    exact ⟨hkind (LawfulEqCmp.eq_of_compare hk), hseverity (LawfulEqCmp.eq_of_compare hs),
      LawfulEqCmp.eq_of_compare hp, LawfulEqCmp.eq_of_compare hm, LawfulEqCmp.eq_of_compare ht⟩
  compare_self {a} := by
    simp [compare_eq_compareLex, ReflCmp.compare_self]

/-- Without repetitions a list in order is in strict order. -/
theorem pairwise_dedup (h : ds.Pairwise fun a b => (compare a b).isLE) :
    (dedup ds).Pairwise (compare · · = .lt) := by
  induction ds with
  | nil => exact .nil
  | cons d ds ih =>
    cases ds with
    | nil => exact List.pairwise_singleton _ _
    | cons e ds =>
      obtain ⟨hd, hds⟩ := List.pairwise_cons.1 h
      rw [dedup]
      split
      · exact ih hds
      · rename_i hne
        refine List.pairwise_cons.2 ⟨fun x hx => ?_, ih hds⟩
        -- what follows is not before the neighbour, which is after the element
        have hde := hd e List.mem_cons_self
        have hlt : compare d e = .lt := by
          rcases hc : compare d e with _ | _ | _
          · rfl
          · exact absurd (LawfulEqCmp.eq_of_compare hc) hne
          · rw [hc] at hde
            exact absurd hde (by decide)
        rcases List.mem_cons.1 (mem_dedup.1 hx) with rfl | hx
        · exact hlt
        · exact TransCmp.lt_of_lt_of_isLE hlt ((List.pairwise_cons.1 hds).1 x hx)

/-- **Diagnostics are arranged in strict order.** -/
theorem pairwise_arrange : (arrange ds).Pairwise (compare · · = .lt) :=
  pairwise_dedup pairwise_isLE_sortBy

theorem nodup_arrange : (arrange ds).Nodup := by
  refine pairwise_arrange.imp fun {a b} hlt hab => ?_
  rw [hab, @ReflCmp.compare_self _ compare] at hlt
  cases hlt

/-- **The same diagnostics are arranged in the same way**, in whatever order and
how often they are given. -/
theorem arrange_congr {ds' : List Diagnostic} (h : ∀ d, d ∈ ds ↔ d ∈ ds') :
    arrange ds = arrange ds' := by
  have : Antisymm fun a b : Diagnostic => compare a b = .lt :=
    ⟨fun a b hab hba => absurd hba (OrientedCmp.not_lt_of_lt hab)⟩
  have : Irrefl fun a b : Diagnostic => compare a b = .lt :=
    ⟨fun a ha => absurd (ReflCmp.compare_self.symm.trans ha) (by decide)⟩
  refine List.Pairwise.eq_of_mem_iff pairwise_arrange pairwise_arrange fun d => ?_
  rw [mem_arrange, mem_arrange, h]

end Diagnostic

section FirstOfEach

variable {α κ : Type} [DecidableEq κ] {key : α → κ} {seen : List κ} {xs : List α} {x : α}

/-- **The first of each key** are the elements that are found first by their
keys, if these are new. -/
theorem mem_firstOfEach_iff :
    x ∈ firstOfEach key seen xs ↔ key x ∉ seen ∧ xs.find? (key · = key x) = some x := by
  induction xs generalizing seen with
  | nil => simp [firstOfEach]
  | cons z xs ih =>
    rw [firstOfEach]
    by_cases hkey : key z = key x
    · rw [List.find?_cons_of_pos (by simpa using hkey), Option.some.injEq]
      split
      · rename_i hseen
        rw [ih]
        exact iff_of_false (fun h => h.1 (hkey ▸ hseen)) fun h => h.1 (hkey ▸ hseen)
      · rename_i hseen
        -- the rest can have the key no more
        rw [List.mem_cons, ih, hkey, eq_comm (a := x)]
        constructor
        · rintro (heq | ⟨hnew, -⟩)
          · exact ⟨hkey ▸ hseen, heq⟩
          · exact absurd List.mem_cons_self hnew
        · exact fun h => .inl h.2
    · rw [List.find?_cons_of_neg (by simpa using hkey)]
      split
      · exact ih
      · have hne : x ≠ z := fun heq => hkey (congrArg key heq.symm)
        rw [List.mem_cons, or_iff_right hne, ih, List.mem_cons, not_or]
        exact and_congr_left fun _ => and_iff_right fun heq => hkey heq.symm

theorem mem_of_mem_firstOfEach (h : x ∈ firstOfEach key seen xs) : x ∈ xs :=
  List.mem_of_find?_eq_some (mem_firstOfEach_iff.1 h).2

/-- **There is only one first element of a key.** -/
theorem eq_of_mem_firstOfEach {y : α} (hx : x ∈ firstOfEach key seen xs)
    (hy : y ∈ firstOfEach key seen xs) (h : key x = key y) : x = y := by
  have hfound := (mem_firstOfEach_iff.1 hx).2
  rw [h, (mem_firstOfEach_iff.1 hy).2] at hfound
  exact (Option.some.inj hfound).symm

/-- **Every key that is new has its first element.** -/
theorem exists_mem_firstOfEach (h : x ∈ xs) (hnew : key x ∉ seen) :
    ∃ y ∈ firstOfEach key seen xs, key y = key x := by
  have hfound : (xs.find? (key · = key x)).isSome :=
    List.find?_isSome.2 ⟨x, h, decide_eq_true rfl⟩
  obtain ⟨y, hy⟩ := Option.isSome_iff_exists.1 hfound
  have hkey : key y = key x := by simpa using List.find?_some hy
  exact ⟨y, mem_firstOfEach_iff.2 ⟨hkey ▸ hnew, hkey ▸ hy⟩, hkey⟩

end FirstOfEach

namespace Graph

open Modules

variable {root : ScanRoot} {fragments : List Fragment} {id : String} {diag : Diagnostic}

/-- What a module names in vain is not resolved. -/
theorem kind_of_mem_diagnosticsOf {modules : Modules} {m : Module}
    (h : diag ∈ modules.diagnosticsOf root m) : diag.kind = .resolution := by
  rcases List.mem_append.1 h with h | h
  · obtain ⟨d, -, hsome⟩ := List.mem_filterMap.1 h
    unfold declarationDiagnostic? at hsome
    split at hsome <;> cases hsome
    rfl
  · obtain ⟨⟨r, failure⟩, -, rfl⟩ := List.mem_map.1 h
    rfl

/-- **The diagnostics of a build**: those of the files, those of the modules
and those of the first links of modules to themselves. -/
theorem mem_diagnostics_build :
    diag ∈ (build root fragments).diagnostics
      ↔ (∃ f ∈ fragments, diag ∈ f.diagnostics)
        ∨ (∃ id, IsScanned fragments id
          ∧ diag ∈ (ofFragments root fragments).diagnosticsOf root (merged root fragments id))
        ∨ ∃ l ∈ firstOfEach (fun l : Link => (l.module, l.kind)) []
          (((ofFragments root fragments).links root).filter Link.isSelf), diag = l.selfDiagnostic := by
  rw [build, Diagnostic.mem_arrange, List.mem_append, List.mem_append, or_assoc, List.mem_flatMap,
    List.mem_flatMap, List.mem_map]
  refine or_congr ?_ (or_congr ?_ ?_)
  · refine exists_congr fun f => and_congr_left fun _ => ?_
    rw [sortBy, List.mem_mergeSort]
  · constructor
    · rintro ⟨n, hn, hdiag⟩
      obtain ⟨id, hid, rfl⟩ := mem_values_ofFragments.1 hn
      exact ⟨id, hid, hdiag⟩
    · rintro ⟨id, hid, hdiag⟩
      exact ⟨_, mem_values_ofFragments.2 ⟨id, hid, rfl⟩, hdiag⟩
  · exact exists_congr fun l => and_congr_right fun _ => eq_comm

/-- **A link of a module to itself is reported**, or another one of the same
module and kind in its place. -/
theorem exists_selfReference_of_link {l : Link} (hl : l ∈ (ofFragments root fragments).links root)
    (hself : l.isSelf) :
    ∃ l' ∈ (ofFragments root fragments).links root, l'.isSelf ∧ l'.module = l.module
      ∧ l'.kind = l.kind ∧ l'.selfDiagnostic ∈ (build root fragments).diagnostics := by
  have hmem : l ∈ ((ofFragments root fragments).links root).filter Link.isSelf :=
    List.mem_filter.2 ⟨hl, hself⟩
  obtain ⟨l', hl', hkey⟩ := @exists_mem_firstOfEach _ _ _ (fun l : Link => (l.module, l.kind)) [] _
    l hmem List.not_mem_nil
  obtain ⟨hlinks, hself'⟩ := List.mem_filter.1 (mem_of_mem_firstOfEach hl')
  obtain ⟨hmodule, hkind⟩ := Prod.mk.inj hkey
  exact ⟨l', hlinks, hself', hmodule, hkind, mem_diagnostics_build.2 (.inr (.inr ⟨l', hl', rfl⟩))⟩

end Graph

end StackGraph
