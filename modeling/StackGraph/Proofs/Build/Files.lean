import StackGraph.Proofs.Build.Dependencies
import StackGraph.Proofs.Directory
import StackGraph.Proofs.Extraction
/-!
# Every file is in exactly one module

On its way into the graph a file is read, becomes a fragment with the id of
its directory, and is absorbed by the module of that id. Its path from the scan
root and this id are computed apart from each other, from the path of the file
and from that of its parent, and a file that cannot be read takes the same way
as any other. So no file is lost and none is counted twice: the path of a file
is found in the module of its directory and in no other one, every module has
a file, and it is a stub exactly if all of its files are broken
(`Graph.files_build_exactly`).
-/

namespace StackGraph

open Std

namespace Workspace

/-- The fragment of a file in a workspace. -/
def fragment (w : Workspace) (root : ScanRoot) (p : Path × FileKind) : Fragment :=
  .ofFile root (.read w root p.1 p.2)

/-- The fragments of some files in a workspace. -/
def fragments (w : Workspace) (root : ScanRoot) (files : List (Path × FileKind)) :
    List Fragment :=
  files.map (w.fragment root)

variable {w : Workspace} {root : ScanRoot} {p : Path × FileKind}

theorem moduleId_fragment : (w.fragment root p).moduleId = root.moduleIdOfFile p.1 := by
  rw [fragment, Fragment.moduleId_ofFile, ConfigFile.path_read.1]

theorem file_fragment : (w.fragment root p).file = root.relativePath p.1 := by
  rw [fragment, Fragment.file_ofFile, ConfigFile.path_read.2]

theorem stub_fragment : (w.fragment root p).stub = true ↔ w.IsBroken p.1 := by
  rw [fragment, Fragment.stub_ofFile, ConfigFile.failed_read]

/-- **The fragment of a file below the scan root** is for the directory of the
file. -/
theorem moduleId_fragment_of_holds (h : root.Holds p.1) :
    (w.fragment root p).moduleId = directoryPart (root.relativePath p.1) := by
  rw [moduleId_fragment, root.moduleIdOfFile_eq h]

/-- **What is reported of a file**: its failure if it is broken, what violates
the vocabulary, and what it declares in vain, always with its path. -/
theorem exists_diagnostics_fragment :
    ∃ violations problems : List String, (w.fragment root p).diagnostics
      = (w.failure? root p.1).toList ++ violations.map (.grammar (root.relativePath p.1))
        ++ problems.map fun message =>
          (Diagnostic.resolution (root.moduleIdOfFile p.1) message).withPath
            (root.relativePath p.1) := by
  obtain ⟨violations, hread⟩ := @ConfigFile.exists_diagnostics_read w root p.1 p.2
  obtain ⟨problems, hfile⟩ := @Fragment.exists_diagnostics_ofFile root (.read w root p.1 p.2)
  rw [hread, ConfigFile.path_read.1, ConfigFile.path_read.2] at hfile
  exact ⟨violations, problems, hfile⟩

/-- Whatever is reported of a file names its path. -/
theorem path_of_mem_diagnostics_fragment {d : Diagnostic}
    (hd : d ∈ (w.fragment root p).diagnostics) : d.path = some (root.relativePath p.1) := by
  obtain ⟨violations, problems, heq⟩ := @exists_diagnostics_fragment w root p
  rw [heq, List.mem_append, List.mem_append, Option.mem_toList] at hd
  rcases hd with (hd | hd) | hd
  · exact (path_and_kind_of_mem_failure? hd).1
  · obtain ⟨message, -, rfl⟩ := List.mem_map.1 hd
    rfl
  · obtain ⟨message, -, rfl⟩ := List.mem_map.1 hd
    rfl

end Workspace

namespace Graph

open Modules

/-! ## The files of a built module -/

section Build

variable {root : ScanRoot} {fragments : List Fragment} {id file : String} {m : Module}

theorem mem_files_build (h : (build root fragments).graph.modules[id]? = some m) :
    file ∈ m.files ↔ ∃ f ∈ fragments, f.moduleId = id ∧ f.file = file := by
  rw [eq_settle_of_getElem?_build h, ← mem_files_merged]
  rfl

theorem stub_build (h : (build root fragments).graph.modules[id]? = some m) :
    m.stub = true ↔ ∀ f ∈ fragments, f.moduleId = id → f.stub = true := by
  rw [eq_settle_of_getElem?_build h, ← stub_merged]
  rfl

end Build

/-! ## From paths to modules -/

variable {w : Workspace} {root : ScanRoot} {files : List (Path × FileKind)}
variable {id file : String} {m : Module}

/-- The modules are the directory parts of the files. -/
theorem mem_modules_build_fragments (hbelow : ∀ p ∈ files, root.Holds p.1) :
    id ∈ (build root (w.fragments root files)).graph.modules
      ↔ ∃ p ∈ files, directoryPart (root.relativePath p.1) = id := by
  rw [mem_modules_build]
  constructor
  · rintro ⟨f, hf, rfl⟩
    obtain ⟨p, hp, rfl⟩ := List.mem_map.1 hf
    exact ⟨p, hp, (Workspace.moduleId_fragment_of_holds (hbelow p hp)).symm⟩
  · rintro ⟨p, hp, rfl⟩
    exact ⟨_, List.mem_map_of_mem hp, Workspace.moduleId_fragment_of_holds (hbelow p hp)⟩

/-- **The files of a module** are those whose directory part is its id. -/
theorem mem_files_build_fragments (hbelow : ∀ p ∈ files, root.Holds p.1)
    (h : (build root (w.fragments root files)).graph.modules[id]? = some m) :
    file ∈ m.files ↔ (∃ p ∈ files, root.relativePath p.1 = file) ∧ directoryPart file = id := by
  rw [mem_files_build h]
  constructor
  · rintro ⟨f, hf, rfl, rfl⟩
    obtain ⟨p, hp, rfl⟩ := List.mem_map.1 hf
    rw [Workspace.file_fragment, Workspace.moduleId_fragment_of_holds (hbelow p hp)]
    exact ⟨⟨p, hp, rfl⟩, rfl⟩
  · rintro ⟨⟨p, hp, rfl⟩, rfl⟩
    exact ⟨_, List.mem_map_of_mem hp, Workspace.moduleId_fragment_of_holds (hbelow p hp),
      Workspace.file_fragment⟩

/-- **Every file is in the module of its directory and in no other one.** So it
is for any files below the scan root, whatever is in them and however they
end; moreover every module has a file, its files are among the given ones, and
it is a stub exactly if all of them are broken. -/
theorem files_build_exactly (w : Workspace) (root : ScanRoot) (files : List (Path × FileKind))
    (hbelow : ∀ p ∈ files, root.Holds p.1) :
    let g := (build root (w.fragments root files)).graph
    (∀ p ∈ files, ∀ id : String,
        (∃ m, g.modules[id]? = some m ∧ root.relativePath p.1 ∈ m.files)
          ↔ id = directoryPart (root.relativePath p.1))
      ∧ ∀ (id : String) (m : Module), g.modules[id]? = some m →
        m.files ≠ ∅
          ∧ (∀ file ∈ m.files, ∃ p ∈ files, root.relativePath p.1 = file)
          ∧ (m.stub = true
            ↔ ∀ p ∈ files, root.relativePath p.1 ∈ m.files → w.IsBroken p.1) := by
  intro g
  refine ⟨fun p hp id => ⟨?_, ?_⟩, fun id m hm => ⟨?_, fun file hfile => ?_, ?_⟩⟩
  · rintro ⟨m, hm, hfile⟩
    exact ((mem_files_build_fragments hbelow hm).1 hfile).2.symm
  · rintro rfl
    have hscanned : directoryPart (root.relativePath p.1) ∈ g.modules :=
      (mem_modules_build_fragments hbelow).2 ⟨p, hp, rfl⟩
    have hm := ExtTreeMap.getElem?_eq_some_getElem hscanned
    exact ⟨_, hm, (mem_files_build_fragments hbelow hm).2 ⟨⟨p, hp, rfl⟩, rfl⟩⟩
  · -- the directory is scanned because of some file
    have hscanned := ExtTreeMap.mem_iff_isSome_getElem?.2 (Option.isSome_of_mem hm)
    obtain ⟨p, hp, hid⟩ := (mem_modules_build_fragments hbelow).1 hscanned
    intro hempty
    have hfile := (mem_files_build_fragments hbelow hm).2 ⟨⟨p, hp, rfl⟩, hid⟩
    rw [hempty] at hfile
    exact ExtTreeSet.not_mem_empty hfile
  · exact ((mem_files_build_fragments hbelow hm).1 hfile).1
  · rw [stub_build hm, Workspace.fragments, List.forall_mem_map]
    refine forall₂_congr fun p hp => ?_
    rw [Workspace.stub_fragment, Workspace.moduleId_fragment_of_holds (hbelow p hp),
      mem_files_build_fragments hbelow hm, and_iff_right ⟨p, hp, rfl⟩]

/-- A tree with an empty file in the scan root and one in a directory that is no
text. -/
def unreadableNet : Workspace where
  files := .directory true [("stack", .directory true
    [("main.tf", .file (some "")), ("net", .directory true [("terragrunt.hcl", .file none)])])]
  directory := ⟨"/"⟩
  environment := ∅

/-- The two files of the tree. -/
def netFiles : List (Path × FileKind) :=
  [(⟨"/stack/main.tf"⟩, .moduleDefinition), (⟨"/stack/net/terragrunt.hcl"⟩, .orchestration)]

/-- In the example the module of the directory is a stub and that of the scan
root is none. -/
theorem files_build_exactly_net :
    (∀ p ∈ netFiles, ScanRoot.Holds ⟨⟨"/stack"⟩⟩ p.1)
      ∧ (∃ m, (build ⟨⟨"/stack"⟩⟩
          (unreadableNet.fragments ⟨⟨"/stack"⟩⟩ netFiles)).graph.modules["net"]? = some m
        ∧ "net/terragrunt.hcl" ∈ m.files ∧ m.stub = true)
      ∧ ∃ m, (build ⟨⟨"/stack"⟩⟩
          (unreadableNet.fragments ⟨⟨"/stack"⟩⟩ netFiles)).graph.modules["."]? = some m
        ∧ "main.tf" ∈ m.files ∧ m.stub = false := by
  have hbelow : ∀ p ∈ netFiles, ScanRoot.Holds ⟨⟨"/stack"⟩⟩ p.1 := by
    intro p hp
    rcases List.mem_pair.1 hp with rfl | rfl
    · exact ⟨[], "main.tf", by decide⟩
    · exact ⟨[.name "net"], "terragrunt.hcl", by decide⟩
  have hbroken : unreadableNet.IsBroken ⟨"/stack/net/terragrunt.hcl"⟩ := by
    intro text h
    cases h
  have hread : ¬ unreadableNet.IsBroken ⟨"/stack/main.tf"⟩ := fun h =>
    absurd (h "" rfl) (by decide)
  obtain ⟨hexactly, hmodules⟩ := files_build_exactly unreadableNet _ netFiles hbelow
  refine ⟨hbelow, ?_, ?_⟩
  · obtain ⟨m, hm, hfile⟩ :=
      (hexactly _ (List.mem_cons_of_mem _ List.mem_cons_self) "net").2 (by decide)
    refine ⟨m, hm, hfile, (hmodules _ m hm).2.2.2 fun p hp hpm => ?_⟩
    rcases List.mem_pair.1 hp with rfl | rfl
    · exact absurd ((hexactly _ hp "net").1 ⟨m, hm, hpm⟩) (by decide)
    · exact hbroken
  · obtain ⟨m, hm, hfile⟩ := (hexactly _ List.mem_cons_self ".").2 (by decide)
    refine ⟨m, hm, hfile, Bool.eq_false_iff.2 fun hstub => hread ?_⟩
    exact (hmodules _ m hm).2.2.1 hstub _ List.mem_cons_self hfile

end Graph

end StackGraph
