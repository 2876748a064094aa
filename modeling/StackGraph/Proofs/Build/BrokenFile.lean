import StackGraph.Proofs.Build.Unread
import StackGraph.Proofs.Extraction
/-!
# A broken file does no more than an empty one

A file that cannot be read or parsed still has a fragment, so that its
directory is not forgotten. Here the build with this fragment is compared with
the build where the file is empty instead. The two fragments differ in two
places only: the one marks its module as a stub, and it brings the diagnostics
of the file. The mark is kept in the module and read by nobody
(`Unread.mark`), so the two builds agree in everything but these
(`Graph.build_of_failed`): no other module, no edge and no diagnostic of
another file depends on whether the file could be read, also where other
modules name its directory.
-/

namespace StackGraph

open Std

/-- The file as if it were empty. -/
def ConfigFile.emptied (file : ConfigFile) : ConfigFile :=
  { file with document := .empty, diagnostics := [], failed := false }

/-- The module without the mark of a stub. -/
def Module.unmarked (m : Module) : Module := { m with stub := false }

/-- **Nobody reads the mark of a stub.** -/
def Unread.mark : Unread where
  clear := Module.unmarked
  clearIn f := { f with stub := false, diagnostics := [] }
  clear_absorb _ _ := rfl
  clear_settleSource m := by
    unfold Module.settleSource Module.unmarked
    dsimp only
    split
    · split <;> rfl
    · rfl
  clear_settle _ _ := rfl
  moduleId_clearIn _ := rfl
  id_clear _ := rfl
  declarations_clear _ := rfl
  references_clear _ := rfl
  invocations_clear _ := rfl

namespace Fragment

variable {root : ScanRoot} {file : ConfigFile}

/-- **The fragment of an empty file** says nothing. -/
theorem ofFile_emptied :
    ofFile root file.emptied
      = empty (root.moduleIdOfFile file.path) file.relativePath (some file.kind) := by
  unfold ofFile ConfigFile.emptied
  cases file.kind <;> rfl

/-- **The fragment of a broken file** says nothing either, but it marks its
module and brings the diagnostics of the file. -/
theorem ofFile_of_failed (hfailed : file.failed = true) :
    ofFile root file
      = { empty (root.moduleIdOfFile file.path) file.relativePath (some file.kind) with
          diagnostics := file.diagnostics
          stub := true } := by
  rw [ofFile, hfailed, if_pos rfl]

/-- The two are the same without the mark. -/
theorem clearIn_mark_ofFile (hfailed : file.failed = true) :
    Unread.mark.clearIn (ofFile root file) = Unread.mark.clearIn (ofFile root file.emptied) := by
  rw [ofFile_of_failed hfailed, ofFile_emptied]
  rfl

end Fragment

/-! ## Changing one fragment -/

/-- The fragment without all that it says, if it is from the given directory. -/
def Fragment.silencedIn (dir : String) (f : Fragment) : Fragment :=
  if f.moduleId = dir then .empty f.moduleId f.file none else f

section Change

variable {fragments before after : List Fragment} {f f' : Fragment} {id dir : String}

@[simp] theorem Fragment.file_silencedIn : (f.silencedIn dir).file = f.file := by
  unfold silencedIn
  split <;> rfl

@[simp] theorem Fragment.moduleId_silencedIn : (f.silencedIn dir).moduleId = f.moduleId := by
  unfold silencedIn
  split <;> rfl

/-- The fragments of a directory after a change that keeps the file and the
directory of each. -/
theorem fragmentsOf_map {e : Fragment → Fragment} (hfile : ∀ f, (e f).file = f.file)
    (hid : ∀ f, (e f).moduleId = f.moduleId) :
    fragmentsOf (fragments.map e) id = (fragmentsOf fragments id).map e := by
  have hsort : (sortBy (compareOn Fragment.file) fragments).map e
      = sortBy (compareOn Fragment.file) (fragments.map e) := by
    refine List.map_mergeSort fun a _ b _ => ?_
    simp only [compareOn, hfile]
  have hfilter : (fun f => f.moduleId == id) ∘ e = (·.moduleId == id) := by
    funext f
    simp only [Function.comp_apply, hid]
  rw [fragmentsOf, fragmentsOf, ← hsort, List.filter_map, hfilter]

/-- What a directory says is nothing to another one. -/
theorem fragmentsOf_map_silencedIn (hne : dir ≠ id) :
    fragmentsOf (fragments.map (Fragment.silencedIn dir)) id = fragmentsOf fragments id := by
  rw [fragmentsOf_map (fun _ => Fragment.file_silencedIn) fun _ => Fragment.moduleId_silencedIn]
  refine (List.map_congr_left fun f hf => if_neg ?_).trans (List.map_id _)
  rw [(mem_fragmentsOf.1 hf).2]
  exact hne.symm

/-- Another directory does not see the change of a fragment in its file. -/
theorem fragmentsOf_append_cons_of_ne (hfile : f.file = f'.file) (hdir : f.moduleId = f'.moduleId)
    (hne : f.moduleId ≠ id) :
    fragmentsOf (before ++ f :: after) id = fragmentsOf (before ++ f' :: after) id := by
  have hsilenced : f.silencedIn f.moduleId = f'.silencedIn f.moduleId := by
    rw [Fragment.silencedIn, Fragment.silencedIn, if_pos rfl, if_pos hdir.symm, hfile, hdir]
  rw [← fragmentsOf_map_silencedIn hne, List.map_append, List.map_cons, hsilenced,
    ← List.map_cons, ← List.map_append, fragmentsOf_map_silencedIn hne]

/-- The same directories are scanned after the change of a fragment in its
directory. -/
theorem isScanned_append_cons (hdir : f.moduleId = f'.moduleId) :
    IsScanned (before ++ f :: after) id ↔ IsScanned (before ++ f' :: after) id := by
  have hmap : ∀ fs, IsScanned fs id ↔ id ∈ fs.map Fragment.moduleId :=
    fun fs => List.mem_map.symm
  rw [hmap, hmap, List.map_append, List.map_append, List.map_cons, List.map_cons, hdir]

/-- A module is the same but for its mark after a change of the mark and the
diagnostics of a fragment. -/
theorem unmarked_merged_append_cons {root : ScanRoot}
    (h : Unread.mark.clearIn f = Unread.mark.clearIn f') :
    Unread.mark.clear (Modules.merged root (before ++ f :: after) id)
      = Unread.mark.clear (Modules.merged root (before ++ f' :: after) id) := by
  have hmap : ∀ fs, (fragmentsOf fs id).map Unread.mark.clearIn
      = fragmentsOf (fs.map Unread.mark.clearIn) id :=
    fun fs => (fragmentsOf_map (e := Unread.mark.clearIn) (fun _ => rfl) fun _ => rfl).symm
  refine Unread.mark.clear_merged ?_
  rw [hmap, hmap, List.map_append, List.map_append, List.map_cons, List.map_cons, h]

end Change

/-! ## The two builds -/

namespace Graph

open Modules

/-- Where the links are the same, the module of another directory does not see
the change of a fragment in its file. -/
theorem getElem?_build_append_cons_of_ne {root : ScanRoot} {before after : List Fragment}
    {f f' : Fragment} {id : String} (hfile : f.file = f'.file) (hdir : f.moduleId = f'.moduleId)
    (hlinks : (ofFragments root (before ++ f :: after)).links root
      = (ofFragments root (before ++ f' :: after)).links root) (hne : f.moduleId ≠ id) :
    (build root (before ++ f :: after)).graph.modules[id]?
      = (build root (before ++ f' :: after)).graph.modules[id]? := by
  rw [modules_build, modules_build, hlinks, ExtTreeMap.getElem?_map, ExtTreeMap.getElem?_map,
    getElem?_ofFragments, getElem?_ofFragments, merged, merged,
    fragmentsOf_append_cons_of_ne hfile hdir hne]

/-- **A file that failed does no more than an empty one.** Whatever other files
there are, the graph has the same modules and the same edges with the same
evidence; all modules are the same but for the mark of a stub on the module of
the file; and the diagnostics are those that there would be anyway and those
of the file. -/
theorem build_of_failed (root : ScanRoot) (before after : List Fragment) (file : ConfigFile)
    (hfailed : file.failed = true) :
    let broken := build root (before ++ .ofFile root file :: after)
    let blank := build root (before ++ .ofFile root file.emptied :: after)
    broken.graph.ids = blank.graph.ids
      ∧ broken.graph.edges = blank.graph.edges
      ∧ (∀ id : String, id ≠ root.moduleIdOfFile file.path →
        broken.graph.modules[id]? = blank.graph.modules[id]?)
      ∧ (∀ id : String, (broken.graph.modules[id]?).map Module.unmarked
        = (blank.graph.modules[id]?).map Module.unmarked)
      ∧ broken.diagnostics = Diagnostic.arrange (blank.diagnostics ++ file.diagnostics) := by
  have hfile : (Fragment.ofFile root file).file = (Fragment.ofFile root file.emptied).file := by
    rw [Fragment.file_ofFile, Fragment.file_ofFile]
    rfl
  have hdir : (Fragment.ofFile root file).moduleId
      = (Fragment.ofFile root file.emptied).moduleId := by
    rw [Fragment.moduleId_ofFile, Fragment.moduleId_ofFile]
    rfl
  have hcleared : (ofFragments root (before ++ .ofFile root file :: after)).cleared Unread.mark
      = (ofFragments root (before ++ .ofFile root file.emptied :: after)).cleared Unread.mark :=
    cleared_ofFragments Unread.mark (fun _ => isScanned_append_cons hdir) fun _ =>
      unmarked_merged_append_cons (Fragment.clearIn_mark_ofFile hfailed)
  obtain ⟨hmodules, hevidence, hlinks, hreports⟩ := build_congr Unread.mark hcleared
  refine ⟨?_, ?_, fun id hid => ?_, fun id => ?_, ?_⟩
  · rw [ids, ids, ← keys_cleared Unread.mark, hmodules, keys_cleared]
  · rw [edges, edges, hevidence]
  · rw [← Fragment.moduleId_ofFile] at hid
    exact getElem?_build_append_cons_of_ne hfile hdir hlinks hid.symm
  · exact getElem?_map_clear Unread.mark hmodules
  · rw [diagnostics_build, diagnostics_build, hreports]
    refine Diagnostic.arrange_congr fun d => ?_
    rw [Fragment.ofFile_of_failed hfailed, Fragment.ofFile_emptied]
    simp only [List.mem_append, List.flatMap_append, List.flatMap_cons, Diagnostic.mem_arrange,
      Fragment.empty, List.not_mem_nil, false_or]
    tauto

/-- An orchestration file with a block that is not closed. -/
def openBlock : ConfigFile :=
  .ofText ⟨⟨"/stack"⟩⟩ ⟨"/stack/net/terragrunt.hcl"⟩ .orchestration "terraform \x7b"

/-- A unit that depends on the directory of the file. -/
def onOpenBlock : Fragment :=
  { Fragment.empty "app" "app/terragrunt.hcl" (some .orchestration) with
    declared := [⟨some "net", "../net", some "net"⟩] }

/-- The file of the example failed, and the unit depends on its directory as if
the file were empty. -/
theorem build_of_failed_net :
    openBlock.failed = true
      ∧ (build ⟨⟨"/stack"⟩⟩ [onOpenBlock, .ofFile ⟨⟨"/stack"⟩⟩ openBlock]).graph.edges
        = (build ⟨⟨"/stack"⟩⟩ [onOpenBlock, .ofFile ⟨⟨"/stack"⟩⟩ openBlock.emptied]).graph.edges
      ∧ (build ⟨⟨"/stack"⟩⟩ [onOpenBlock, .ofFile ⟨⟨"/stack"⟩⟩ openBlock]).graph.modules["app"]?
        = (build ⟨⟨"/stack"⟩⟩ [onOpenBlock,
            .ofFile ⟨⟨"/stack"⟩⟩ openBlock.emptied]).graph.modules["app"]? := by
  have hfailed : openBlock.failed = true := by decide +kernel
  obtain ⟨-, hedges, hothers, -, -⟩ :=
    build_of_failed ⟨⟨"/stack"⟩⟩ [onOpenBlock] [] openBlock hfailed
  exact ⟨hfailed, hedges, hothers "app" (by decide +kernel)⟩

end Graph

end StackGraph
