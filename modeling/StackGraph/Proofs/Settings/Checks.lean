import StackGraph.Proofs.Settings.Precedence
/-!
# The two checks of settings

Settings are checked twice: each file as it is read (`Layer.problem?`), and the
merged settings at the end (`Settings.check`). What a check lets pass is said
here without the check: `Layer.IsSound` for a file, `Settings.IsUsable` for
settings in a workspace.

A file is refused for settings that no run can use: an empty path or pattern, a
name of orchestration files that is a path, and the like. One would expect that
no other source can bring such settings in. Most of them it cannot, either
because it has no way to say them or because the final check repeats the
question. But three of them are asked of files only. An empty pattern or output
file on the command line, and a path as the name of orchestration files in the
environment, reach the run (`Workspace.not_isSound_orchestrationPath`).
`Workspace.isSound_iff_of_loadSettings` says that nothing else does.
-/

namespace StackGraph

/-! ## Computations that only check -/

section Guards

variable {ε α β : Type} {e : ε} {b : β}

/-- A condition that ends a computation does not hold if it succeeds. -/
theorem guard_eq_ok_iff {c : Prop} [Decidable c] {f : Unit → Except ε β} :
    (if c then throw e >>= f else f ()) = .ok b ↔ ¬ c ∧ f () = .ok b := by
  by_cases h : c
  · rw [if_pos h]
    exact iff_of_false (by rintro ⟨⟩) fun hnot => hnot.1 h
  · rw [if_neg h, and_iff_right h]

/-- A check in front of a computation has to succeed as well. -/
theorem check_bind_eq_ok_iff {x : Except ε Unit} {f : Unit → Except ε β} :
    x >>= f = .ok b ↔ x = .ok () ∧ f () = .ok b := by
  rw [bind_eq_ok_iff]
  exact ⟨fun ⟨⟨⟩, hx, hf⟩ => ⟨hx, hf⟩, fun ⟨hx, hf⟩ => ⟨_, hx, hf⟩⟩

/-- A check of all elements succeeds if that of each one does. -/
theorem listForM_eq_ok_iff {f : α → Except ε Unit} {xs : List α} :
    xs.forM f = .ok () ↔ ∀ x ∈ xs, f x = .ok () := by
  induction xs with
  | nil => exact iff_of_true rfl (by simp)
  | cons x xs ih =>
    show (f x >>= fun _ => xs.forM f) = _ ↔ _
    rw [check_bind_eq_ok_iff, ih, List.forall_mem_cons]

/-- A check of something that may be absent. -/
theorem optionForM_eq_ok_iff {f : α → Except ε Unit} {x : Option α} :
    x.forM f = .ok () ↔ ∀ a ∈ x, f a = .ok () := by
  cases x with
  | none => exact iff_of_true rfl (by simp)
  | some a => simp [Option.forM]

end Guards

/-- A text is a pattern. -/
def Glob.IsPattern (text : String) : Prop := ∃ g, Glob.read text = .ok g

theorem Glob.isPattern_of_ok {text : String} {g : Glob} (h : Glob.read text = .ok g) :
    IsPattern text := ⟨g, h⟩

theorem Glob.not_isPattern_of_error {text : String} {e : GlobError}
    (h : Glob.read text = .error e) : ¬ IsPattern text := by
  rintro ⟨g, hg⟩
  cases h.symm.trans hg

/-! ## Settings that a run can use -/

namespace Settings

variable {w : Workspace} {s : Settings} {text : String} {file : Path}

/-- **Settings that a run can use** in a workspace. -/
structure IsUsable (w : Workspace) (s : Settings) : Prop where
  /-- The scan root is a directory. -/
  scanPath : w.isDirectory s.scanPath = true
  excludes : ∀ text ∈ s.excludes, Glob.IsPattern text
  maxDepth : s.maxDepth ≠ some 0
  orchestrationFile : s.orchestrationFile ≠ ""
  moduleExtension : s.moduleExtension ≠ ""
  /-- The directory of the output, if it is named, can be written to. -/
  outputFile : ∀ file ∈ s.outputFile, ∀ parent ∈ file.parent?, parent.text ≠ "" →
    w.isDirectory parent = true ∧ w.isReadOnly parent = false

theorem checkExclude_eq_ok_iff : checkExclude text = .ok () ↔ Glob.IsPattern text := by
  unfold checkExclude
  split
  · rename_i g hread
    exact iff_of_true rfl (Glob.isPattern_of_ok hread)
  · rename_i e hread
    exact iff_of_false (by rintro ⟨⟩) (Glob.not_isPattern_of_error hread)

theorem checkOutput_eq_ok_iff :
    checkOutput w file = .ok () ↔ ∀ parent ∈ file.parent?, parent.text ≠ "" →
      w.isDirectory parent = true ∧ w.isReadOnly parent = false := by
  unfold checkOutput
  split
  · rename_i hnone
    exact iff_of_true rfl (by simp [hnone])
  · rename_i parent hparent
    simp only [hparent, Option.mem_some_iff, forall_eq', String.isEmpty_iff]
    split
    · rename_i hempty
      exact iff_of_true rfl fun hne => absurd hempty hne
    · rename_i hne
      split
      · rename_i hdirectory
        exact iff_of_false (by rintro ⟨⟩) fun h => by simp [(h hne).1] at hdirectory
      · rename_i hdirectory
        split
        · rename_i hreadOnly
          exact iff_of_false (by rintro ⟨⟩) fun h => by simp [(h hne).2] at hreadOnly
        · rename_i hwritable
          exact iff_of_true rfl fun _ => ⟨by simpa using hdirectory, by simpa using hwritable⟩

/-- **The check of merged settings** lets pass those that a run can use. -/
theorem check_eq_ok_iff : s.check w = .ok () ↔ s.IsUsable w := by
  unfold check
  rw [guard_eq_ok_iff, check_bind_eq_ok_iff, guard_eq_ok_iff, guard_eq_ok_iff, guard_eq_ok_iff,
    listForM_eq_ok_iff, optionForM_eq_ok_iff]
  simp only [checkExclude_eq_ok_iff, checkOutput_eq_ok_iff, Bool.not_eq_true', Bool.not_eq_false,
    String.isEmpty_iff]
  constructor
  · rintro ⟨hpath, hexcludes, hdepth, hname, hextension, houtput⟩
    exact ⟨hpath, hexcludes, hdepth, hname, hextension, houtput⟩
  · rintro ⟨hpath, hexcludes, hdepth, hname, hextension, houtput⟩
    exact ⟨hpath, hexcludes, hdepth, hname, hextension, houtput⟩

end Settings

/-! ## Layers that a file may give -/

namespace Layer

variable {l : Layer} {name text : String} {file : Path}

theorem isBareName_iff :
    isBareName name = true ↔ name ≠ "" ∧ '/' ∉ name.toList ∧ '\\' ∉ name.toList := by
  simp only [isBareName, Bool.and_eq_true, Bool.not_eq_true', List.any_eq_false,
    String.isEmpty_eq_false_iff, Bool.or_eq_true, beq_iff_eq, not_or]
  refine and_congr_right fun _ => ⟨fun h => ?_, fun h c hc => ?_⟩
  · exact ⟨fun hmem => (h _ hmem).1 rfl, fun hmem => (h _ hmem).2 rfl⟩
  · exact ⟨fun heq => h.1 (heq ▸ hc), fun heq => h.2 (heq ▸ hc)⟩

/-- **A layer that a file may give**: what it says can be used. -/
structure IsSound (l : Layer) : Prop where
  scanPath : l.scanPath ≠ some ⟨""⟩
  excludes : ∀ texts ∈ l.excludes, ∀ text ∈ texts, text ≠ "" ∧ Glob.IsPattern text
  maxDepth : l.maxDepth ≠ some 0
  outputFile : l.outputFile ≠ some ⟨""⟩
  /-- The name of orchestration files can name a file in any directory. -/
  orchestrationFile : ∀ name ∈ l.orchestrationFile, isBareName name = true
  moduleExtension : ∀ extension ∈ l.moduleExtension, bareExtension extension ≠ ""

theorem isSound_empty : empty.IsSound := by
  constructor <;> simp [empty]

theorem excludeProblem?_eq_none_iff :
    excludeProblem? text = none ↔ text ≠ "" ∧ Glob.IsPattern text := by
  unfold excludeProblem?
  split
  · rename_i hempty
    exact iff_of_false (by rintro ⟨⟩) fun h => h.1 (String.isEmpty_iff.1 hempty)
  · rename_i hne
    rw [and_iff_right fun hempty => hne (String.isEmpty_iff.2 hempty)]
    split
    · rename_i g hread
      exact iff_of_true rfl (Glob.isPattern_of_ok hread)
    · rename_i e hread
      exact iff_of_false (by rintro ⟨⟩) (Glob.not_isPattern_of_error hread)

/-- **The check of a file** finds no problem exactly in what a file may give. -/
theorem problem?_eq_none_iff : l.problem? = none ↔ l.IsSound := by
  have hexcludes : (l.excludes.getD []).findSome? excludeProblem? = none
      ↔ ∀ texts ∈ l.excludes, ∀ text ∈ texts, text ≠ "" ∧ Glob.IsPattern text := by
    simp only [List.findSome?_eq_none_iff, excludeProblem?_eq_none_iff]
    cases l.excludes <;> simp
  have hname : ¬ l.orchestrationFile.any (!isBareName ·) = true
      ↔ ∀ name ∈ l.orchestrationFile, isBareName name = true := by
    cases l.orchestrationFile <;> simp
  have hextension : ¬ l.moduleExtension.any (fun e => (bareExtension e).isEmpty) = true
      ↔ ∀ extension ∈ l.moduleExtension, bareExtension extension ≠ "" := by
    cases l.moduleExtension <;> simp
  unfold problem?
  simp only [Option.orElse_eq_orElse, Option.orElse_eq_or, Option.or_eq_none_iff, hexcludes, hname,
    hextension, ite_eq_right_iff, reduceCtorEq, imp_false]
  constructor
  · rintro ⟨hpath, hexcludes, hdepth, houtput, hname, hextension⟩
    exact ⟨hpath, hexcludes, hdepth, houtput, hname, hextension⟩
  · rintro ⟨hpath, hexcludes, hdepth, houtput, hname, hextension⟩
    exact ⟨hpath, hexcludes, hdepth, houtput, hname, hextension⟩

/-- What is read from the text of a file is what a file may give. -/
theorem isSound_of_ofText (h : ofText file text = .ok l) : l.IsSound := by
  unfold ofText at h
  split at h
  · cases h
  · split at h
    · cases h
    · rename_i hproblem
      cases h
      exact problem?_eq_none_iff.1 hproblem

end Layer

namespace Workspace

variable {w : Workspace} {l : Layer} {path : Path} {config : Option Path}

theorem isSound_of_readFile (h : Layer.readFile w path = .ok l) : l.IsSound := by
  unfold Layer.readFile at h
  split at h
  · cases h
  · split at h
    · exact Layer.isSound_of_ofText h
    · cases h

theorem isSound_of_usualLayer? {directory : Path} (h : w.usualLayer? directory = .ok (some l)) :
    l.IsSound := by
  unfold usualLayer? at h
  split at h
  · cases h
  · rename_i path _
    cases hread : Layer.readFile w path with
    | error e => rw [hread] at h; cases h
    | ok read => rw [hread] at h; cases h; exact isSound_of_readFile hread

/-- **The layer of the file** is what a file may give, also where there is no
file. -/
theorem isSound_of_fileLayer (h : w.fileLayer config = .ok l) : l.IsSound := by
  cases config with
  | some path =>
    replace h : (if w.isFile path then Layer.readFile w path
      else .error (.settingsNotFound path)) = .ok l := h
    split at h
    · exact isSound_of_readFile h
    · cases h
  | none =>
    replace h : (w.usualLayer? w.directory).map (·.getD .empty) = .ok l := h
    cases husual : w.usualLayer? w.directory with
    | error e => rw [husual] at h; cases h
    | ok found =>
      rw [husual] at h
      obtain rfl := Except.ok.inj h
      cases found with
      | none => exact Layer.isSound_empty
      | some l => exact isSound_of_usualLayer? husual

end Workspace

/-! ## What comes of the sources -/

namespace Settings

/-- **Settings as a file may give them**, whichever source they are from. -/
structure IsSound (s : Settings) : Prop where
  scanPath : s.scanPath ≠ ⟨""⟩
  outputFile : s.outputFile ≠ some ⟨""⟩
  excludes : ∀ text ∈ s.excludes, text ≠ "" ∧ Glob.IsPattern text
  maxDepth : s.maxDepth ≠ some 0
  moduleExtension : s.moduleExtension ≠ ""
  orchestrationFile : s.orchestrationFile ≠ "" ∧ '/' ∉ s.orchestrationFile.toList
    ∧ '\\' ∉ s.orchestrationFile.toList

variable {w : Workspace} {s : Settings} {a : Arguments} {e : Environment} {file : Layer}

/-- The empty path leads nowhere. -/
theorem IsUsable.scanPath_ne (h : s.IsUsable w) : s.scanPath ≠ ⟨""⟩ := by
  intro hempty
  have hfind : w.find ⟨""⟩ .target = .error .notFound := by
    have hnowhere : FileError.ofPath? ⟨""⟩ = some .notFound := by decide
    rw [Workspace.find, Workspace.place, hnowhere]
    rfl
  have hdirectory := h.scanPath
  rw [hempty, Workspace.isDirectory, Workspace.leadsTo, hfind] at hdirectory
  cases hdirectory

/-- **What the final check leaves open**: the three questions that it does not
repeat. -/
theorem IsUsable.isSound_iff (h : s.IsUsable w) :
    s.IsSound ↔ "" ∉ s.excludes ∧ s.outputFile ≠ some ⟨""⟩
      ∧ Layer.isBareName s.orchestrationFile = true := by
  rw [Layer.isBareName_iff]
  constructor
  · intro hsound
    exact ⟨fun hmem => (hsound.excludes "" hmem).1 rfl, hsound.outputFile,
      hsound.orchestrationFile⟩
  · rintro ⟨hexcludes, houtput, hname⟩
    exact ⟨h.scanPath_ne, houtput,
      fun text hmem => ⟨fun hempty => hexcludes (hempty ▸ hmem), h.excludes text hmem⟩,
      h.maxDepth, h.moduleExtension, hname⟩

/-- **An empty pattern** can only come from the command line: the environment
passes over empty pieces, and the file is checked. -/
theorem notMem_excludes_chosen_iff (hfile : file.IsSound) :
    "" ∉ (chosen a e file).excludes ↔ ∀ texts ∈ a.excludes, "" ∉ texts := by
  cases ha : a.excludes with
  | some texts => simp [chosen, ha]
  | none =>
    refine iff_of_true ?_ (by simp)
    cases he : e.get? "EXCLUDE" with
    | some value => simp [chosen, ha, he, Environment.patterns]
    | none =>
      cases hf : file.excludes with
      | some texts =>
        have hempty : "" ∉ texts := fun hmem => (hfile.excludes texts hf "" hmem).1 rfl
        simpa [chosen, ha, he, hf] using hempty
      | none => simp [chosen, ha, he, hf, defaults]

/-- **An empty output file** can only come from the command line. -/
theorem outputFile_chosen_ne_iff (hfile : file.IsSound) :
    (chosen a e file).outputFile ≠ some ⟨""⟩ ↔ a.outputFile ≠ some ⟨""⟩ := by
  cases ha : a.outputFile with
  | some path => simp [chosen, ha]
  | none =>
    refine iff_of_true ?_ (by simp)
    simpa [chosen, ha, defaults] using hfile.outputFile

/-- **A path as the name of orchestration files** can only come from the
environment. -/
theorem isBareName_chosen_iff (hfile : file.IsSound) :
    Layer.isBareName (chosen a e file).orchestrationFile = true
      ↔ ∀ name ∈ e.get? "ORCHESTRATION_FILE", Layer.isBareName name = true := by
  cases he : e.get? "ORCHESTRATION_FILE" with
  | some name => simp [chosen, he]
  | none =>
    refine iff_of_true ?_ (by simp)
    cases hf : file.orchestrationFile with
    | some name => simpa [chosen, he, hf] using hfile.orchestrationFile name hf
    | none => simpa [chosen, he, hf] using (by decide : Layer.isBareName defaults.orchestrationFile)

end Settings

namespace Workspace

variable {w : Workspace} {a : Arguments} {stem : String} {s : Settings}

/-- Loaded settings are the chosen ones, and a run can use them. -/
theorem exists_file_of_loadSettings (h : w.loadSettings a stem = .ok s) :
    ∃ file : Layer, file.IsSound ∧ s = .chosen a (w.variablesOf stem) file ∧ s.IsUsable w := by
  obtain ⟨l, hl, hbuild⟩ := bind_eq_ok_iff.1 h
  obtain ⟨file, hfile, -, rfl⟩ := layers_eq_ok_iff.1 hl
  obtain ⟨hcheck, hs⟩ := check_bind_eq_ok_iff.1 hbuild
  rw [Settings.settings_onto] at hcheck hs
  obtain rfl := Except.ok.inj hs
  exact ⟨file, isSound_of_fileLayer hfile, rfl, Settings.check_eq_ok_iff.1 hcheck⟩

/-- **Loaded settings are sound but for three holes**: they are what a file may
give exactly if the command line names no empty pattern and no empty output
file, and the environment no path for orchestration files. The rest holds of all
loaded settings. -/
theorem isSound_iff_of_loadSettings (h : w.loadSettings a stem = .ok s) :
    (s.scanPath ≠ ⟨""⟩ ∧ (∀ text ∈ s.excludes, Glob.IsPattern text) ∧ s.maxDepth ≠ some 0
        ∧ s.moduleExtension ≠ "" ∧ s.orchestrationFile ≠ "")
      ∧ (s.IsSound ↔ (∀ texts ∈ a.excludes, "" ∉ texts) ∧ a.outputFile ≠ some ⟨""⟩
        ∧ ∀ name ∈ (w.variablesOf stem).get? "ORCHESTRATION_FILE",
          Layer.isBareName name = true) := by
  obtain ⟨file, hfile, rfl, husable⟩ := exists_file_of_loadSettings h
  refine ⟨⟨husable.scanPath_ne, husable.excludes, husable.maxDepth, husable.moduleExtension,
    husable.orchestrationFile⟩, ?_⟩
  rw [husable.isSound_iff, Settings.notMem_excludes_chosen_iff hfile,
    Settings.outputFile_chosen_ne_iff hfile, Settings.isBareName_chosen_iff hfile]

/-- A workspace with a name of orchestration files in its environment. -/
def withOrchestrationFile (name : String) : Workspace :=
  ⟨.directory true [], ⟨"/"⟩, .ofList [("TFDEPS_ORCHESTRATION_FILE", name)] compare⟩

/-- A bare name in the environment gives sound settings. -/
theorem isSound_withOrchestrationFile :
    (withOrchestrationFile "unit.hcl").loadSettings .empty "TFDEPS"
        = .ok { Settings.defaults with orchestrationFile := "unit.hcl" }
      ∧ { Settings.defaults with orchestrationFile := "unit.hcl" : Settings }.IsSound := by
  have hload : (withOrchestrationFile "unit.hcl").loadSettings .empty "TFDEPS"
      = .ok { Settings.defaults with orchestrationFile := "unit.hcl" } := by decide +kernel
  exact ⟨hload, (isSound_iff_of_loadSettings hload).2.2
    ⟨by decide +kernel, by decide +kernel, by decide +kernel⟩⟩

/-- **A path in the environment** becomes the name of orchestration files. -/
theorem not_isSound_orchestrationPath :
    (withOrchestrationFile "live/terragrunt.hcl").loadSettings .empty "TFDEPS"
        = .ok { Settings.defaults with orchestrationFile := "live/terragrunt.hcl" }
      ∧ ¬ { Settings.defaults with
          orchestrationFile := "live/terragrunt.hcl" : Settings }.IsSound := by
  refine ⟨by decide +kernel, fun h => ?_⟩
  exact absurd h.orchestrationFile (by decide)

end Workspace

end StackGraph
