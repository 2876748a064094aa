import StackGraph.Proofs.Descent
/-!
# The directory of a module

The id of a module is read off its directory, and the directory is made from the
id. Reading takes components, on which repeated slashes and points have no
effect; making puts names behind the text of the scan root. What the two have in
common are the names of an id: every id is put together again from them
(`ModuleId.ofSegments_segments`), and its directory is the way down them
(`ScanRoot.moduleDir_eq`). However the root is written, the way shows in the
components.

So the id comes back, and the same goes for files beside it
(`ScanRoot.moduleId_moduleDir`), if the names are such that a directory can have
them.
-/

namespace StackGraph

namespace ModuleId

variable {id id' file : String}

/-- The names that an id consists of. The id of the root has none. -/
def names (id : String) : List String := (segments id).map String.ofList

/-- **The id of a directory** below a scan root, or of the root itself: the
directory on every level can have its name. -/
def IsDirectoryId (id : String) : Prop := ∀ name ∈ names id, IsEntryName name

instance : DecidablePred IsDirectoryId := fun id =>
  inferInstanceAs (Decidable (∀ name ∈ names id, IsEntryName name))

theorem map_toList_names : (names id).map String.toList = segments id := by
  simp [names, Function.comp_def]

/-- An id is told by its names. -/
theorem names_inj : names id = names id' ↔ id = id' := by
  constructor
  · intro h
    have hsegments : segments id = segments id' := by
      rw [← map_toList_names, h, map_toList_names]
    calc id = ofSegments (segments id) := ofSegments_segments.symm
      _ = ofSegments (segments id') := by rw [hsegments]
      _ = id' := ofSegments_segments
  · rintro rfl
    rfl

theorem names_eq_nil_iff : names id = [] ↔ id = rootId := by
  rw [← names_inj]
  rfl

/-- Names with slashes between them are an id, if there are any. -/
theorem ofSegments_map_toList {names : List String} (hne : names ≠ []) :
    ofSegments (names.map String.toList) = "/".intercalate names := by
  rw [ofSegments, if_neg (by simpa using hne), ← ScanRoot.toList_joined, String.ofList_toList]

/-- **The path of a file** from the scan root is the id of its module with the
name behind it. -/
theorem intercalate_names_concat :
    "/".intercalate (names id ++ [file]) = if id = rootId then file else id ++ "/" ++ file := by
  split
  · rename_i hroot
    rw [names_eq_nil_iff.2 hroot]
    exact String.intercalate_singleton
  · rename_i hroot
    have hne : names id ≠ [] := mt names_eq_nil_iff.1 hroot
    rw [String.intercalate_append_of_ne_nil hne (List.cons_ne_nil _ _),
      String.intercalate_singleton, ← ofSegments_map_toList hne, map_toList_names,
      ofSegments_segments]

end ModuleId

namespace ScanRoot

open ModuleId

variable {root : ScanRoot} {id : String}

/-- **The directory of a module** is the way down the names of its id. -/
theorem moduleDir_eq : root.moduleDir id = root.path.descend (names id) := by
  unfold moduleDir names segments Path.descend
  split
  · rfl
  · rw [List.foldl_map]

/-- **An id comes back from its directory**, whatever the scan root is and
however it is written. Different ids have different directories, and a file in
the directory belongs to the module and shows the id before its name. -/
theorem moduleId_moduleDir (root : ScanRoot) {id : String} (hid : IsDirectoryId id) :
    root.moduleId (root.moduleDir id) = id
      ∧ (∀ id', IsDirectoryId id' →
          (root.moduleDir id').components = (root.moduleDir id).components → id' = id)
      ∧ ∀ file, IsEntryName file →
          root.moduleIdOfFile ((root.moduleDir id).child file) = id
            ∧ root.relativePath ((root.moduleDir id).child file)
              = if id = rootId then file else id ++ "/" ++ file := by
  have hdir : (root.moduleDir id).components
      = root.path.components ++ (names id).map Component.name := by
    rw [moduleDir_eq, Path.components_descend hid]
  have hmade : ofSegments ((names id).map String.toList) = id := by
    rw [map_toList_names, ofSegments_segments]
  refine ⟨?_, fun id' hid' hsame => ?_, fun file hfile => ?_⟩
  · rw [moduleId_eq hdir, Component.filterMap_map_name, hmade]
  · rw [moduleDir_eq, moduleDir_eq, Path.components_descend_inj hid' hid] at hsame
    exact names_inj.1 hsame
  · have hpath : ((root.moduleDir id).child file).components
        = root.path.components ++ ((names id).map Component.name ++ [.name file]) := by
      rw [Path.components_child hfile, hdir, List.append_assoc]
    constructor
    · rw [moduleIdOfFile_eq ⟨_, _, hpath⟩, directoryPart_relativePath hpath,
        Component.filterMap_map_name, hmade]
    · rw [Path.child_eq_descend moduleDir_eq, relativePath_descend, intercalate_names_concat]
      exact List.forall_mem_append.2 ⟨hid, List.forall_mem_singleton.2 hfile⟩

/-- A scan root that is written with a point and a slash at its end. -/
theorem moduleId_moduleDir_prod :
    IsDirectoryId "env/prod" ∧ IsEntryName "main.tf"
      ∧ ScanRoot.moduleId ⟨⟨"./infra/"⟩⟩ (moduleDir ⟨⟨"./infra/"⟩⟩ "env/prod") = "env/prod"
      ∧ ScanRoot.relativePath ⟨⟨"./infra/"⟩⟩
          ((moduleDir ⟨⟨"./infra/"⟩⟩ "env/prod").child "main.tf") = "env/prod/main.tf" := by
  have hid : IsDirectoryId "env/prod" := by decide
  have hfile : IsEntryName "main.tf" := by decide
  obtain ⟨hmodule, -, hbeside⟩ := moduleId_moduleDir ⟨⟨"./infra/"⟩⟩ hid
  exact ⟨hid, hfile, hmodule, (hbeside "main.tf" hfile).2.trans (by decide)⟩

end ScanRoot

end StackGraph
