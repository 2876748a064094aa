import Mathlib.Data.String.Basic
import StackGraph.Graph.Build
import StackGraph.Proofs.Ordered
/-!
# Modules as what their fragments say

Building starts by folding all fragments, in the order of their files, into a
map of modules. Read through one directory the fold is a simple thing: it
skips the fragments of other directories and absorbs those of its own, so the
module under an id is what the fragments of that directory make of an empty
one (`Modules.getElem?_ofFragments`). Everything that is known about a module
is then known field by field from these fragments alone: its declarations are
theirs in order, its references are theirs, and the source of a nested module
is the least that one of them gives.
-/

namespace StackGraph

open Std

/-- **The fragments of one directory**, in the order of their files. -/
def fragmentsOf (fragments : List Fragment) (id : String) : List Fragment :=
  (sortBy (compareOn Fragment.file) fragments).filter (·.moduleId == id)

/-- A scanned module: the directory of some fragment. -/
def IsScanned (fragments : List Fragment) (id : String) : Prop :=
  ∃ f ∈ fragments, f.moduleId = id

variable {root : ScanRoot} {fragments : List Fragment} {id : String}

@[simp] theorem mem_fragmentsOf {f : Fragment} :
    f ∈ fragmentsOf fragments id ↔ f ∈ fragments ∧ f.moduleId = id := by
  rw [fragmentsOf, List.mem_filter, beq_iff_eq, sortBy, List.mem_mergeSort]

/-- A directory without fragments is not scanned. -/
theorem fragmentsOf_eq_nil : fragmentsOf fragments id = [] ↔ ¬ IsScanned fragments id := by
  rw [List.eq_nil_iff_forall_not_mem, IsScanned, not_exists]
  exact forall_congr' fun f => not_congr mem_fragmentsOf

/-! ## Absorbing several fragments -/

namespace Module

variable {m : Module} {fs : List Fragment}

@[simp] theorem id_foldl_absorb : (fs.foldl absorb m).id = m.id := by
  induction fs generalizing m with
  | nil => rfl
  | cons f fs ih => rw [List.foldl_cons, ih, absorb]

/-- Declarations stay in the order of the fragments. -/
theorem declarations_foldl_absorb :
    (fs.foldl absorb m).declarations = m.declarations ++ fs.flatMap Fragment.declared := by
  induction fs generalizing m with
  | nil => simp
  | cons f fs ih => rw [List.foldl_cons, ih, absorb, List.flatMap_cons, List.append_assoc]

theorem mem_references_foldl_absorb {r : Reference} :
    r ∈ (fs.foldl absorb m).references ↔ r ∈ m.references ∨ ∃ f ∈ fs, r ∈ f.references := by
  induction fs generalizing m with
  | nil => simp
  | cons f fs ih =>
    rw [List.foldl_cons, ih, absorb, mem_setInsertMany, or_assoc,
      List.exists_mem_cons_iff (fun f : Fragment => r ∈ f.references)]

/-- A module has the files of all its fragments. -/
theorem mem_files_foldl_absorb {file : String} :
    file ∈ (fs.foldl absorb m).files ↔ file ∈ m.files ∨ ∃ f ∈ fs, f.file = file := by
  induction fs generalizing m with
  | nil => simp
  | cons f fs ih =>
    rw [List.foldl_cons, ih, absorb, ExtTreeSet.mem_insert, LawfulEqCmp.compare_eq_iff_eq,
      List.exists_mem_cons_iff, or_assoc, or_left_comm]

/-- A module stays a stub as long as every fragment is one. -/
theorem stub_foldl_absorb :
    (fs.foldl absorb m).stub = true ↔ m.stub = true ∧ ∀ f ∈ fs, f.stub = true := by
  induction fs generalizing m with
  | nil => simp
  | cons f fs ih =>
    rw [List.foldl_cons, ih, absorb, Bool.and_eq_true, List.forall_mem_cons, and_assoc]

/-! ### Sources of nested modules

Of several sources for one nested module the least stays. Since the least of
several is found in any order and grouping, what is left after a fold is the
least of what the map held and of all that was found. -/

theorem min?_congr {l l' : List String} (h : ∀ s, s ∈ l ↔ s ∈ l') : l.min? = l'.min? := by
  ext s
  simp only [List.min?_eq_some_iff, h]

/-- The least of some sources stands for all of them. -/
theorem min?_toList_append (l l' : List String) : (l.min?.toList ++ l').min? = (l ++ l').min? := by
  cases l with
  | nil => rfl
  | cons s l =>
    rw [List.min?_cons', Option.toList_some, List.singleton_append, List.cons_append,
      List.min?_cons', List.min?_cons', List.foldl_append]

variable {invocations : NameMap String} {name : String}

theorem getElem?_mergeInvocation {found : String × String} :
    (mergeInvocation invocations found)[name]?
      = (invocations[name]?.toList ++ if found.1 = name then [found.2] else []).min? := by
  obtain ⟨key, source⟩ := found
  by_cases hkey : key = name
  · subst hkey
    unfold mergeInvocation
    cases hold : invocations[key]? with
    | none => simp
    | some old =>
      by_cases hlt : source < old
      · simp [hlt, min_eq_right_of_lt hlt]
      · simp [hlt, hold, min_eq_left (le_of_not_gt hlt)]
  · have hsame : (mergeInvocation invocations (key, source))[name]? = invocations[name]? := by
      have hcmp : compare key name ≠ .eq := fun h => hkey (LawfulEqCmp.eq_of_compare h)
      unfold mergeInvocation
      split
      · split
        · rw [ExtTreeMap.getElem?_insert, if_neg hcmp]
        · rfl
      · rw [ExtTreeMap.getElem?_insert, if_neg hcmp]
    rw [hsame, if_neg hkey, List.append_nil]
    cases invocations[name]? <;> rfl

theorem getElem?_foldl_mergeInvocation {found : List (String × String)} :
    (found.foldl mergeInvocation invocations)[name]?
      = (invocations[name]?.toList
        ++ found.flatMap fun p => if p.1 = name then [p.2] else []).min? := by
  induction found generalizing invocations with
  | nil => cases h : invocations[name]? <;> simp [h]
  | cons p found ih =>
    rw [List.foldl_cons, ih, getElem?_mergeInvocation, min?_toList_append, List.flatMap_cons,
      List.append_assoc]

/-- **One fragment adds its own source**, if it has one for the name. -/
theorem getElem?_invocations_absorb {f : Fragment} :
    (m.absorb f).invocations[name]?
      = (m.invocations[name]?.toList ++ f.invocations[name]?.toList).min? := by
  rw [absorb, getElem?_foldl_mergeInvocation]
  refine min?_congr fun s => ?_
  rw [List.mem_append, List.mem_append]
  refine or_congr_right ?_
  rw [List.mem_flatMap, Option.mem_toList, ← ExtTreeMap.mem_toList_iff_getElem?_eq_some]
  constructor
  · rintro ⟨⟨key, source⟩, hmem, hs⟩
    split at hs
    · rename_i hkey
      obtain rfl : key = name := hkey
      rwa [List.mem_singleton.1 hs]
    · exact absurd hs List.not_mem_nil
  · intro hmem
    exact ⟨(name, s), hmem, by simp⟩

/-- **Several fragments leave the least of their sources.** -/
theorem getElem?_invocations_foldl_absorb :
    (fs.foldl absorb m).invocations[name]?
      = (m.invocations[name]?.toList ++ fs.filterMap (·.invocations[name]?)).min? := by
  induction fs generalizing m with
  | nil => cases h : m.invocations[name]? <;> simp [h]
  | cons f fs ih =>
    rw [List.foldl_cons, ih, getElem?_invocations_absorb, min?_toList_append, List.append_assoc]
    congr 2
    cases h : f.invocations[name]? <;> simp [h]

/-! ### What is settled afterwards

Settling the source of a module touches nothing else. -/

/-- **Only the source changes.** -/
theorem exists_settleSource_eq (m : Module) : ∃ source, m.settleSource = { m with source } := by
  unfold settleSource
  split
  · split
    · exact ⟨_, rfl⟩
    · exact ⟨m.source, rfl⟩
  · exact ⟨m.source, rfl⟩

@[simp] theorem id_settleSource : m.settleSource.id = m.id := by
  obtain ⟨source, h⟩ := m.exists_settleSource_eq
  rw [h]

@[simp] theorem declarations_settleSource : m.settleSource.declarations = m.declarations := by
  obtain ⟨source, h⟩ := m.exists_settleSource_eq
  rw [h]

@[simp] theorem references_settleSource : m.settleSource.references = m.references := by
  obtain ⟨source, h⟩ := m.exists_settleSource_eq
  rw [h]

@[simp] theorem invocations_settleSource : m.settleSource.invocations = m.invocations := by
  obtain ⟨source, h⟩ := m.exists_settleSource_eq
  rw [h]

@[simp] theorem files_settleSource : m.settleSource.files = m.files := by
  obtain ⟨source, h⟩ := m.exists_settleSource_eq
  rw [h]

@[simp] theorem stub_settleSource : m.settleSource.stub = m.stub := by
  obtain ⟨source, h⟩ := m.exists_settleSource_eq
  rw [h]

end Module

/-! ## The map of modules -/

namespace Modules

open StackGraph.Module

/-- **The fold seen from one directory.** Fragments of other directories do
not matter to it, and its own are absorbed one after the other. -/
theorem getElem?_foldl_addFragment {modules : Modules} {fs : List Fragment} :
    (fs.foldl (addFragment root) modules)[id]?
      = if fs.filter (·.moduleId == id) = [] then modules[id]?
        else some ((fs.filter (·.moduleId == id)).foldl absorb
          (modules[id]?.getD (.new id (root.moduleDir id)))) := by
  induction fs generalizing modules with
  | nil => simp
  | cons f fs ih =>
    rw [List.foldl_cons, ih]
    -- the next fragment belongs to the directory, or it leaves the entry alone
    by_cases hid : f.moduleId = id
    · subst hid
      rw [addFragment, ExtTreeMap.getElem?_insert_self, List.filter_cons_of_pos (by simp),
        if_neg (List.cons_ne_nil _ _), List.foldl_cons]
      split
      · rename_i hnone
        rw [hnone, List.foldl_nil]
      · rfl
    · have hkeep : (addFragment root modules f)[id]? = modules[id]? :=
        getElem?_insert_of_ne hid
      rw [List.filter_cons_of_neg (by simpa using hid), hkeep]

/-- The module that the fragments of a directory make up. -/
def merged (root : ScanRoot) (fragments : List Fragment) (id : String) : Module :=
  ((fragmentsOf fragments id).foldl absorb (.new id (root.moduleDir id))).settleSource

/-- **The module under an id** is what the fragments of that directory make of
an empty one. -/
theorem getElem?_ofFragments :
    (ofFragments root fragments)[id]?
      = if fragmentsOf fragments id = [] then none else some (merged root fragments id) := by
  rw [ofFragments, ExtTreeMap.getElem?_map, getElem?_foldl_addFragment]
  show Option.map _ (if fragmentsOf fragments id = [] then _ else _) = _
  split <;> simp [merged, fragmentsOf]

@[simp] theorem mem_ofFragments : id ∈ ofFragments root fragments ↔ IsScanned fragments id := by
  rw [ExtTreeMap.mem_iff_isSome_getElem?, getElem?_ofFragments, ← not_iff_not,
    ← fragmentsOf_eq_nil]
  split <;> simp_all

/-- Whatever is stored under an id is the merged module. -/
theorem eq_merged_of_getElem? {m : Module} (h : (ofFragments root fragments)[id]? = some m) :
    m = merged root fragments id := by
  rw [getElem?_ofFragments] at h
  split at h
  · cases h
  · cases h
    rfl

/-! ### The fields of a module -/

@[simp] theorem id_merged : (merged root fragments id).id = id := by
  rw [merged, id_settleSource, id_foldl_absorb, Module.new]

/-- Modules are stored under the ids that they have. -/
theorem id_eq_ofFragments (id : String) (m : Module)
    (h : (ofFragments root fragments)[id]? = some m) : m.id = id := by
  rw [eq_merged_of_getElem? h, id_merged]

/-- The declarations of a module are those of its fragments, in order. -/
@[simp] theorem declarations_merged :
    (merged root fragments id).declarations
      = (fragmentsOf fragments id).flatMap Fragment.declared := by
  rw [merged, declarations_settleSource, declarations_foldl_absorb, Module.new, List.nil_append]

/-- The references of a module are those of its fragments. -/
@[simp] theorem mem_references_merged {r : Reference} :
    r ∈ (merged root fragments id).references
      ↔ ∃ f ∈ fragments, f.moduleId = id ∧ r ∈ f.references := by
  rw [merged, references_settleSource, mem_references_foldl_absorb, Module.new]
  simp [and_assoc]

/-- The files of a module are those of its fragments. -/
@[simp] theorem mem_files_merged {file : String} :
    file ∈ (merged root fragments id).files
      ↔ ∃ f ∈ fragments, f.moduleId = id ∧ f.file = file := by
  rw [merged, files_settleSource, mem_files_foldl_absorb, Module.new]
  simp [and_assoc]

/-- A module is a stub if all its fragments are. -/
theorem stub_merged :
    (merged root fragments id).stub = true ↔ ∀ f ∈ fragments, f.moduleId = id → f.stub = true := by
  rw [merged, stub_settleSource, stub_foldl_absorb, Module.new]
  simp

/-- The source of a nested module is the least that a fragment gives. -/
theorem getElem?_invocations_merged {name : String} :
    (merged root fragments id).invocations[name]?
      = ((fragmentsOf fragments id).filterMap (·.invocations[name]?)).min? := by
  rw [merged, invocations_settleSource, getElem?_invocations_foldl_absorb, Module.new]
  simp

end Modules

end StackGraph
