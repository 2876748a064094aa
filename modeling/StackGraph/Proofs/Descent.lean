import StackGraph.Proofs.Directory
import StackGraph.Proofs.Ordered
/-!
# The way down from a directory

A path below a directory is written by putting names behind it, with a slash in
between unless there is one. On components it is simply the path of the
directory continued by the names (`Path.components_descend`), however the
directory is written, so the path from a scan root shows the names again
(`ScanRoot.relativePath_descend`) and different names lead to different paths
(`Path.components_descend_inj`).

This holds of the names that the entries of a directory can have
(`IsEntryName`). A name with a slash would be several, and points would stay
where they are or go up.

Paths are ordered by their components, which makes a total preorder: two
spellings of one path are equal in it and nothing else is.
-/

namespace StackGraph

open Std

/-- **A name that an entry of a directory can have.** -/
structure IsEntryName (name : String) : Prop where
  ne_empty : name ≠ ""
  ne_here : name ≠ "."
  ne_up : name ≠ ".."
  no_slash : '/' ∉ name.toList

instance : DecidablePred IsEntryName := fun name =>
  decidable_of_iff (name ≠ "" ∧ name ≠ "." ∧ name ≠ ".." ∧ '/' ∉ name.toList)
    ⟨fun ⟨hempty, hhere, hup, hslash⟩ => ⟨hempty, hhere, hup, hslash⟩,
      fun ⟨hempty, hhere, hup, hslash⟩ => ⟨hempty, hhere, hup, hslash⟩⟩

namespace IsEntryName

variable {name : String}

/-- A name is none of the pieces of a path with a meaning of their own. -/
theorem toList_ne (h : IsEntryName name) :
    name.toList ≠ [] ∧ name.toList ≠ ['.'] ∧ name.toList ≠ ['.', '.'] := by
  have hne : ∀ text : String, name ≠ text → name.toList ≠ text.toList :=
    fun _ hne heq => hne (String.toList_inj.1 heq)
  exact ⟨hne "" h.ne_empty, hne "." h.ne_here, hne ".." h.ne_up⟩

end IsEntryName

/-- Names among components are found again. -/
theorem Component.filterMap_map_name {names : List String} :
    (names.map Component.name).filterMap Component.name? = names := by
  rw [List.filterMap_map]
  exact List.filterMap_some

namespace Path

variable {p q : Path} {name : String} {names names' : List String}

/-! ## One name -/

/-- A name stands for itself. -/
theorem component?_toList (h : IsEntryName name) : component? name.toList = some (.name name) := by
  obtain ⟨hempty, hhere, hup⟩ := h.toList_ne
  rw [component?, if_neg (not_or.2 ⟨hempty, hhere⟩), if_neg hup, String.ofList_toList]

/-- A name alone is its only component. -/
theorem components_name (h : IsEntryName name) : components ⟨name⟩ = [.name name] := by
  obtain ⟨hempty, hhere, -⟩ := h.toList_ne
  have hpieces : pieces ⟨name⟩ = [name.toList] := Text.splitOn_of_not_mem h.no_slash
  rw [components_eq hpieces (.inl hempty), lead, if_neg hempty, if_neg hhere, component?_toList h]
  rfl

/-- A name is put behind a slash, which is there already or is added. -/
theorem exists_toList_child (h : IsEntryName name) (hp : p.text ≠ "") :
    ∃ front, (p.child name).text.toList = front ++ '/' :: name.toList
      ∧ (p.text.toList = front ∨ p.text.toList = front ++ ['/']) := by
  have hrelative : ¬ (isAbsolute ⟨name⟩ ∨ p.text.isEmpty) := by
    rw [isAbsolute, beq_iff_eq, String.isEmpty_iff, not_or]
    exact ⟨fun habs => h.no_slash (List.mem_of_head? habs), hp⟩
  rw [child, join, if_neg hrelative]
  split
  · rename_i hlast
    obtain ⟨front, hfront⟩ := List.getLast?_eq_some_iff.1 (beq_iff_eq.1 hlast)
    exact ⟨front, by simp [hfront], .inr hfront⟩
  · exact ⟨p.text.toList, by simp, .inl rfl⟩

/-- **A name below a path is one more component.** -/
theorem components_child (h : IsEntryName name) :
    (p.child name).components = p.components ++ [.name name] := by
  by_cases hp : p.text = ""
  · have hempty : p.components = [] := components_eq_nil (by rw [pieces, hp]; rfl)
    rw [child, join, if_pos (.inr (String.isEmpty_iff.2 hp)), hempty, components_name h]
    rfl
  · obtain ⟨front, hchild, hfront⟩ := exists_toList_child h hp
    obtain ⟨first, rest, hsplit⟩ :=
      List.exists_cons_of_ne_nil (Text.splitOn_ne_nil (· == '/') front)
    -- a slash at the end of a path leaves an empty piece, which stands for nothing
    have hcomponents : p.components = lead first ++ rest.filterMap component? := by
      obtain hfront | hfront := hfront
      · refine components_eq (by rw [pieces, hfront, hsplit]) ?_
        by_contra hnot
        obtain ⟨hfirst, hrest⟩ := not_or.1 hnot
        rw [not_not.1 hfirst, not_not.1 hrest, ← hfront] at hsplit
        exact hp (String.toList_inj.1 (Text.splitOn_eq_singleton_nil.1 hsplit))
      · have hpieces : p.pieces = first :: (rest ++ [[]]) := by
          rw [pieces, hfront, Text.splitOn_append_cons, hsplit]
          rfl
        rw [components_eq hpieces (.inr (by simp)), List.filterMap_append]
        exact congrArg _ (List.append_nil _)
    have hpieces : (p.child name).pieces = first :: (rest ++ [name.toList]) := by
      rw [pieces, hchild, Text.splitOn_append_cons, hsplit, Text.splitOn_of_not_mem h.no_slash]
      rfl
    rw [components_eq hpieces (.inr (by simp)), hcomponents, List.filterMap_append,
      List.filterMap_cons_some (component?_toList h), List.filterMap_nil, List.append_assoc]

/-! ## Several names -/

/-- The path that leads down some names. -/
def descend (p : Path) (names : List String) : Path := names.foldl child p

@[simp] theorem descend_nil : p.descend [] = p := rfl

theorem descend_concat : p.descend (names ++ [name]) = (p.descend names).child name :=
  List.foldl_concat ..

/-- One name further down. -/
theorem child_eq_descend (h : q = p.descend names) : q.child name = p.descend (names ++ [name]) := by
  rw [h, descend_concat]

/-- **The components of a path below another one.** -/
theorem components_descend (h : ∀ name ∈ names, IsEntryName name) :
    (p.descend names).components = p.components ++ names.map .name := by
  induction names using List.reverseRecOn with
  | nil => simp
  | append_singleton names name ih =>
    rw [descend_concat, components_child (h name (List.mem_concat_self ..)),
      ih fun name hname => h name (List.mem_append_left _ hname), List.append_assoc,
      List.map_append]
    rfl

/-- **Different names lead to different paths.** -/
theorem components_descend_inj (h : ∀ name ∈ names, IsEntryName name)
    (h' : ∀ name ∈ names', IsEntryName name) :
    (p.descend names).components = (p.descend names').components ↔ names = names' := by
  have hinj : Function.Injective Component.name := fun _ _ => Component.name.inj
  rw [components_descend h, components_descend h', List.append_cancel_left_eq,
    hinj.list_map.eq_iff]

/-- The name of a file below a path. -/
theorem fileName?_descend (h : ∀ name ∈ names, IsEntryName name) (hname : IsEntryName name) :
    (p.descend (names ++ [name])).fileName? = some name := by
  have hall : ∀ entry ∈ names ++ [name], IsEntryName entry := by
    simpa [or_imp, forall_and] using ⟨h, hname⟩
  rw [fileName?, components_descend hall, List.map_append, ← List.append_assoc,
    List.map_singleton, List.getLast?_concat]
  rfl

theorem fileName?_name (h : IsEntryName name) : fileName? ⟨name⟩ = some name := by
  rw [fileName?, components_name h]
  rfl

end Path

/-- **From a root, a path below it is its names** with slashes between them. -/
theorem ScanRoot.relativePath_descend {root : ScanRoot} {names : List String}
    (h : ∀ name ∈ names, IsEntryName name) :
    root.relativePath (root.path.descend names) = "/".intercalate names := by
  rw [relativePath_eq (Path.components_descend h), Path.joinNames, Component.filterMap_map_name]

/-! ## The order of paths -/

namespace Component

/-- Components are compared by their kinds and then by their names. -/
theorem compare_eq_compareLex : compare = compareLex (compareOn rank) (compareOn name?) := by
  funext a b
  cases a <;> cases b <;> rfl

instance : TransCmp compare := by
  rw [compare_eq_compareLex]
  infer_instance

instance : LawfulEqCmp compare where
  eq_of_compare {a b} h := by
    simp only [compare_eq_compareLex, compareLex, compareOn, Ordering.then_eq_eq,
      LawfulEqCmp.compare_eq_iff_eq] at h
    obtain ⟨hrank, hname⟩ := h
    cases a <;> cases b <;> simp_all [rank, name?]
  compare_self {a} := by
    cases a <;> simp [compare, rank]

end Component

namespace Path

instance : TransCmp compare where
  eq_swap := (inferInstance : TransCmp (compareList Component.compare)).eq_swap
  isLE_trans := (inferInstance : TransCmp (compareList Component.compare)).isLE_trans

/-- Paths that are equal in the order have the same components. -/
theorem components_eq_of_compare {p q : Path} (h : compare p q = .eq) :
    p.components = q.components :=
  (inferInstance : LawfulEqCmp (compareList Component.compare)).eq_of_compare h

end Path

end StackGraph
