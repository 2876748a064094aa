import StackGraph.Proofs.Build.Absorption
import StackGraph.Proofs.Build.Dependencies
import StackGraph.Proofs.Build.Unread
import StackGraph.Proofs.Extraction
/-!
# The order of files does not matter

Fragments are taken in the order of their files, so their order in the list
and the names of the files together decide in which order a module absorbs
them. Renaming the files changes this order arbitrarily, and it changes the
sets of files that the modules keep; but nobody reads these, and where no
directory has two files that declare something, any order of absorbing gives
the same module. So a build from rearranged fragments differs from the first
one in the names of the files alone (`Graph.build_of_rearranged`).
-/

namespace StackGraph

open Std

/-- The same fragment in a file of another name. -/
def Fragment.Renamed (f f' : Fragment) : Prop := f' = { f with file := f'.file }

/-- **A rearrangement of fragments**: some or all are in files of other names,
and then their order is changed. -/
def Rearranged (fragments fragments' : List Fragment) : Prop :=
  ∃ renamed, List.Forall₂ Fragment.Renamed fragments renamed ∧ renamed.Perm fragments'

/-- **One declaring file for each directory**: at most one fragment of a module
has a source or declares dependencies. -/
def DeclaresOnce (fragments : List Fragment) : Prop :=
  ∀ id, fragments.countP (fun f => f.moduleId == id && f.declares) ≤ 1

/-- Only orchestration files declare something. -/
theorem Fragment.kind_of_declares_ofFile {root : ScanRoot} {file : ConfigFile}
    (h : (ofFile root file).declares = true) : file.kind = .orchestration := by
  unfold ofFile at h
  split at h
  · cases h
  · dsimp only at h
    split at h
    · assumption
    · cases h

/-- **A single orchestration file for each directory** is enough for that. -/
theorem declaresOnce_ofFiles {root : ScanRoot} {files : List ConfigFile}
    (h : ∀ id, files.countP (fun file =>
      root.moduleIdOfFile file.path == id && file.kind == .orchestration) ≤ 1) :
    DeclaresOnce (files.map (Fragment.ofFile root)) := by
  intro id
  rw [List.countP_map]
  refine (List.countP_mono_left fun file _ hfile => ?_).trans (h id)
  rw [Function.comp_apply, Fragment.moduleId_ofFile, Bool.and_eq_true] at hfile
  rw [hfile.1, Fragment.kind_of_declares_ofFile hfile.2]
  rfl

/-- The module without its files. -/
def Module.withoutFiles (m : Module) : Module := { m with files := ∅ }

/-- **Nobody reads the names of the files.** -/
def Unread.files : Unread where
  clear := Module.withoutFiles
  clearIn f := { f with file := "" }
  clear_absorb _ _ := rfl
  clear_settleSource m := by
    unfold Module.settleSource Module.withoutFiles
    dsimp only
    split
    · split <;> rfl
    · rfl
  clear_settle _ _ := rfl
  moduleId_clearIn _ := rfl
  id_clear _ := rfl
  declarations_clear _ := rfl
  references_clear _ := rfl
  invocations_clear _ := rfl

variable {root : ScanRoot} {fragments fragments' : List Fragment} {id : String}

/-- A rearrangement is a permutation but for the names of the files. -/
theorem Rearranged.map_clearIn_perm (h : Rearranged fragments fragments') :
    (fragments.map Unread.files.clearIn).Perm (fragments'.map Unread.files.clearIn) := by
  obtain ⟨renamed, hrenamed, hperm⟩ := h
  have hsame : fragments.map Unread.files.clearIn = renamed.map Unread.files.clearIn := by
    clear hperm
    induction hrenamed with
    | nil => rfl
    | cons hf _ ih => rw [List.map_cons, List.map_cons, ih, hf]; rfl
  rw [hsame]
  exact hperm.map _

/-- What holds of some fragment whatever its file holds of some fragment of a
rearrangement. -/
theorem Rearranged.exists_iff (h : Rearranged fragments fragments') (p : Fragment → Prop)
    (hp : ∀ f, p (Unread.files.clearIn f) ↔ p f) :
    (∃ f ∈ fragments, p f) ↔ ∃ f ∈ fragments', p f := by
  have hmap : ∀ {fs : List Fragment},
      (∃ f ∈ fs, p f) ↔ ∃ f ∈ fs.map Unread.files.clearIn, p f := by
    intro fs
    simp [hp]
  rw [@hmap fragments, @hmap fragments']
  exact exists_congr fun f => and_congr_left fun _ => h.map_clearIn_perm.mem_iff

/-- The fragments of one directory, but for the names of their files. -/
theorem map_clearIn_fragmentsOf_perm :
    ((fragmentsOf fragments id).map Unread.files.clearIn).Perm
      ((fragments.map Unread.files.clearIn).filter (·.moduleId == id)) := by
  rw [List.filter_map]
  exact (perm_sortBy.filter _).map _

/-- **The module of a directory** is the same but for its files. -/
theorem withoutFiles_merged (hone : DeclaresOnce fragments) (h : Rearranged fragments fragments') :
    Unread.files.clear (Modules.merged root fragments id)
      = Unread.files.clear (Modules.merged root fragments' id) := by
  -- the names of the files can be cleared before a fold
  have hclear : ∀ (fs : List Fragment) (m : Module),
      Unread.files.clear (fs.foldl Module.absorb m)
        = Unread.files.clear ((fs.map Unread.files.clearIn).foldl Module.absorb m) := by
    intro fs m
    refine Unread.files.clear_foldl_absorb rfl ?_
    rw [List.map_map]
    rfl
  have hperm : ((fragmentsOf fragments id).map Unread.files.clearIn).Perm
      ((fragmentsOf fragments' id).map Unread.files.clearIn) :=
    map_clearIn_fragmentsOf_perm.trans
      ((h.map_clearIn_perm.filter _).trans map_clearIn_fragmentsOf_perm.symm)
  have hcount : (((fragmentsOf fragments id).map Unread.files.clearIn).filter
      Fragment.declares).length ≤ 1 := by
    have hsame : Fragment.declares ∘ Unread.files.clearIn = Fragment.declares := rfl
    rw [← List.countP_eq_length_filter, List.countP_map, hsame, fragmentsOf, List.countP_filter,
      perm_sortBy.countP_eq]
    simpa only [Bool.and_comm] using hone id
  rw [Modules.merged, Modules.merged, Unread.files.clear_settleSource,
    Unread.files.clear_settleSource]
  refine congrArg Module.settleSource ?_
  rw [hclear, hclear (fragmentsOf fragments' id), Module.foldl_absorb_perm hperm hcount]

namespace Graph

open Modules

/-- **Neither the order of the fragments nor the names of their files matter**
to a build, where each directory has one declaring file at most. Modules,
edges with their evidence and diagnostics stay the same, and only the files of
the modules are called otherwise. -/
theorem build_of_rearranged (root : ScanRoot) (fragments fragments' : List Fragment)
    (hone : DeclaresOnce fragments) (h : Rearranged fragments fragments') :
    let b := build root fragments
    let b' := build root fragments'
    (∀ id : String, (b'.graph.modules[id]?).map Module.withoutFiles
        = (b.graph.modules[id]?).map Module.withoutFiles)
      ∧ b'.graph.edges = b.graph.edges
      ∧ b'.diagnostics = b.diagnostics := by
  have hscanned : ∀ id, IsScanned fragments id ↔ IsScanned fragments' id :=
    fun id => h.exists_iff (·.moduleId = id) fun _ => Iff.rfl
  have hcleared : (ofFragments root fragments).cleared Unread.files
      = (ofFragments root fragments').cleared Unread.files :=
    cleared_ofFragments Unread.files hscanned fun _ => withoutFiles_merged hone h
  obtain ⟨hmodules, hevidence, -, hreports⟩ := build_congr Unread.files hcleared
  refine ⟨fun id => ?_, ?_, ?_⟩
  · exact getElem?_map_clear Unread.files hmodules.symm
  · rw [edges, edges, hevidence]
  · rw [diagnostics_build, diagnostics_build, hreports]
    refine Diagnostic.arrange_congr fun d => ?_
    rw [List.mem_append, List.mem_append, List.mem_flatMap, List.mem_flatMap]
    exact or_congr_left (h.exists_iff (d ∈ ·.diagnostics) fun _ => Iff.rfl).symm

/-- A fragment of the unit in a file whose name comes after that of its
orchestration file. -/
def movedBehind (f : Fragment) : Fragment :=
  { f with file := if f.file = "app/main.tf" then "app/unit.tf" else f.file }

/-- The unit and its neighbours in another order. -/
def appRearranged : List Fragment := (appOnNet.map movedBehind).reverse

/-- The example is rearranged, so that its module absorbs its two files in the
other order, and is built to the same graph. -/
theorem build_of_rearranged_app :
    DeclaresOnce appOnNet ∧ Rearranged appOnNet appRearranged
      ∧ ((build ⟨⟨"/stack"⟩⟩ appRearranged).graph.modules["app"]?).map Module.withoutFiles
        = ((build ⟨⟨"/stack"⟩⟩ appOnNet).graph.modules["app"]?).map Module.withoutFiles
      ∧ (build ⟨⟨"/stack"⟩⟩ appRearranged).graph.edges = (build ⟨⟨"/stack"⟩⟩ appOnNet).graph.edges
      ∧ (build ⟨⟨"/stack"⟩⟩ appRearranged).diagnostics
        = (build ⟨⟨"/stack"⟩⟩ appOnNet).diagnostics := by
  have hone : DeclaresOnce appOnNet := by
    intro id
    by_cases hid : "app" = id
    · simp [appOnNet, Fragment.declares, Fragment.empty, hid]
    · simp [appOnNet, Fragment.declares, Fragment.empty, hid]
  have hrearranged : Rearranged appOnNet appRearranged := by
    refine ⟨appOnNet.map movedBehind, ?_, (List.reverse_perm _).symm⟩
    exact List.forall₂_map_right_iff.2 (List.forall₂_same.2 fun f _ => rfl)
  obtain ⟨hmodules, hedges, hdiagnostics⟩ :=
    build_of_rearranged ⟨⟨"/stack"⟩⟩ appOnNet appRearranged hone hrearranged
  exact ⟨hone, hrearranged, hmodules "app", hedges, hdiagnostics⟩

end Graph

end StackGraph
