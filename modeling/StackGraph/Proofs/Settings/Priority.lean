import StackGraph.Proofs.Settings.Precedence
/-!
# Settings and the priority of their sources

Each source of settings has a priority, and the greater number is to go before
the smaller one. Loading does not look at the numbers. It merges the layers in an
order of its own: the environment on the file and the command line on both.

About the command line the two agree, as it has the greatest number and comes
last. About the other two they do not: the file has the greater number, and the
environment hides it. So the source that goes first by its number is the one that
counts, unless it is a file and the environment says something else
(`Workspace.taken_iff_of_isForemost`).

The same holds for each setting, so settings are values here, with the type of
what they are set to.
-/

namespace StackGraph

/-! ## One setting at a time -/

/-- A setting, by the type of its values. -/
inductive Setting : Type → Type where
  | scanPath : Setting Path
  | excludes : Setting (List String)
  | maxDepth : Setting Nat
  | format : Setting OutputFormat
  | outputFile : Setting Path
  | parallel : Setting Bool
  | quiet : Setting Bool
  | verbose : Setting Bool
  | followLinks : Setting Bool
  | colors : Setting Bool
  | progress : Setting Bool
  | timestamp : Setting Bool
  | orchestrationFile : Setting String
  | moduleExtension : Setting String

namespace Setting

variable {α : Type}

/-- What a layer says about a setting. -/
def given : Setting α → Layer → Option α
  | scanPath, l => l.scanPath
  | excludes, l => l.excludes
  | maxDepth, l => l.maxDepth
  | format, l => l.format
  | outputFile, l => l.outputFile
  | parallel, l => l.parallel
  | quiet, l => l.quiet
  | verbose, l => l.verbose
  | followLinks, l => l.followLinks
  | colors, l => l.colors
  | progress, l => l.progress
  | timestamp, l => l.timestamp
  | orchestrationFile, l => l.orchestrationFile
  | moduleExtension, l => l.moduleExtension

/-- The value of a setting in a run. There may be no limit to the depth and no
file for the output. -/
def taken : Setting α → Settings → Option α
  | scanPath, s => some s.scanPath
  | excludes, s => some s.excludes
  | maxDepth, s => s.maxDepth
  | format, s => some s.format
  | outputFile, s => s.outputFile
  | parallel, s => some s.parallel
  | quiet, s => some s.quiet
  | verbose, s => some s.verbose
  | followLinks, s => some s.followLinks
  | colors, s => some s.colors
  | progress, s => some s.progress
  | timestamp, s => some s.timestamp
  | orchestrationFile, s => some s.orchestrationFile
  | moduleExtension, s => some s.moduleExtension

/-- A value as a run takes it: an extension without the points in front. -/
def normal : Setting α → α → α
  | moduleExtension => bareExtension
  | _ => id

variable {x : Setting α} {upper lower l : Layer}

@[simp] theorem given_empty : x.given .empty = none := by
  cases x <;> rfl

/-- The upper layer hides the lower one, in every setting. -/
theorem given_onto : x.given (upper.onto lower) = (x.given upper).or (x.given lower) := by
  cases x <;> simp [given, Layer.onto]

/-- A run takes what the merged layer says, or else the default. -/
theorem taken_settings :
    x.taken l.settings = ((x.given l).map x.normal).or (x.taken .defaults) := by
  cases x <;> simp [taken, given, normal, Layer.settings]

end Setting

/-! ## The sources of a run -/

namespace Source

variable {α : Type} {w : Workspace} {source : Source} {l : Layer} {x : Setting α} {v : α}

/-- **A source sets a setting** to a value if its layer says so. -/
def Sets (w : Workspace) (source : Source) (x : Setting α) (v : α) : Prop :=
  ∃ l, source.layer w = .ok l ∧ x.given l = some v

theorem sets_iff (h : source.layer w = .ok l) : source.Sets w x v ↔ x.given l = some v := by
  simp [Sets, h]

theorem forall_not_sets_iff (h : source.layer w = .ok l) :
    (∀ v, ¬ source.Sets w x v) ↔ x.given l = none := by
  simp only [sets_iff h]
  exact Option.eq_none_iff_forall_ne_some.symm

end Source

namespace Workspace

variable {α : Type} {w : Workspace} {a : Arguments} {stem : String} {s : Settings}
  {x : Setting α} {source : Source} {config : Option Path} {file : Layer} {v : α}

/-- The file that a run reads settings from: the one it is given, or else the
first of the usual places that is a file. -/
def settingsFile? (w : Workspace) (config : Option Path) : Option Path :=
  config <|> (w.settingsFiles w.directory).find? w.isFile

/-- The layer of the file is the one that the file gives as a source. -/
theorem fileLayer_of_eq_some {path : Path} (h : w.settingsFile? config = some path) :
    w.fileLayer config = (Source.file path).layer w := by
  cases config with
  | some given =>
    cases h
    rfl
  | none =>
    have hfind : (w.settingsFiles w.directory).find? w.isFile = some path := h
    have hfile : w.isFile path = true := List.find?_some hfind
    rw [fileLayer, usualLayer?, hfind, Source.layer, if_pos hfile]
    show ((Layer.readFile w path).map some).map (·.getD .empty) = Layer.readFile w path
    cases Layer.readFile w path <;> rfl

/-- Without a file the layer of the file is empty. -/
theorem fileLayer_of_eq_none (h : w.settingsFile? config = none) :
    w.fileLayer config = .ok .empty := by
  cases config with
  | some given => cases h
  | none =>
    have hfind : (w.settingsFiles w.directory).find? w.isFile = none := h
    rw [fileLayer, usualLayer?, hfind]
    rfl

/-- The layer of the file is what the file sets, if there is one. -/
theorem given_fileLayer_iff (h : w.fileLayer config = .ok file) :
    x.given file = some v
      ↔ ∃ path, w.settingsFile? config = some path ∧ (Source.file path).Sets w x v := by
  cases hfound : w.settingsFile? config with
  | none =>
    obtain rfl : Layer.empty = file :=
      Except.ok.inj ((fileLayer_of_eq_none hfound).symm.trans h)
    simp
  | some path =>
    have hlayer : (Source.file path).layer w = .ok file :=
      (fileLayer_of_eq_some hfound).symm.trans h
    simp [Source.sets_iff hlayer]

/-- The layer of the file says nothing that the file does not set. -/
theorem given_fileLayer_eq_none (h : w.fileLayer config = .ok file)
    (hnone : ∀ path, w.settingsFile? config = some path → ∀ v, ¬ (Source.file path).Sets w x v) :
    x.given file = none :=
  Option.eq_none_iff_forall_ne_some.2 fun v hv =>
    have ⟨path, hpath, hsets⟩ := (given_fileLayer_iff h).1 hv
    hnone path hpath v hsets

/-- The sources of a run, in the order in which their layers are merged. -/
def sourcesOf (w : Workspace) (a : Arguments) (stem : String) : List Source :=
  ((w.settingsFile? a.config).map Source.file).toList ++ [.environment stem, .commandLine a]

/-- **The source that goes first** among those of a run that set a setting: it
has the greatest priority. -/
structure IsForemost (w : Workspace) (a : Arguments) (stem : String) (x : Setting α)
    (source : Source) (v : α) : Prop where
  mem : source ∈ w.sourcesOf a stem
  sets : source.Sets w x v
  greatest : ∀ other ∈ w.sourcesOf a stem, ∀ u, other.Sets w x u →
    other.priority ≤ source.priority

theorem mem_sourcesOf_iff :
    source ∈ w.sourcesOf a stem
      ↔ (∃ path, w.settingsFile? a.config = some path ∧ source = .file path)
        ∨ source = .environment stem ∨ source = .commandLine a := by
  simp [sourcesOf, eq_comm]

theorem commandLine_mem_sourcesOf : .commandLine a ∈ w.sourcesOf a stem :=
  mem_sourcesOf_iff.2 (.inr (.inr rfl))

theorem environment_mem_sourcesOf : .environment stem ∈ w.sourcesOf a stem :=
  mem_sourcesOf_iff.2 (.inr (.inl rfl))

/-- A file goes first in what it sets and the command line does not, also where
the environment sets it. -/
theorem isForemost_file {path : Path} (hpath : w.settingsFile? a.config = some path)
    (hsets : (Source.file path).Sets w x v) (hcommand : x.given a.layer = none) :
    w.IsForemost a stem x (.file path) v where
  mem := mem_sourcesOf_iff.2 (.inl ⟨path, hpath, rfl⟩)
  sets := hsets
  greatest := by
    intro other hother u hu
    obtain ⟨path, -, rfl⟩ | rfl | rfl := mem_sourcesOf_iff.1 hother
    · exact Nat.le_refl _
    · exact Nat.le_of_lt (by simp [Source.priority])
    · cases hcommand.symm.trans ((Source.sets_iff rfl).1 hu)

/-- The command line sets nothing where another source goes first. -/
theorem IsForemost.given_arguments (h : w.IsForemost a stem x source v)
    (hlt : source.priority < (Source.commandLine a).priority) : x.given a.layer = none :=
  (Source.forall_not_sets_iff rfl).1 fun u hu =>
    absurd (h.greatest _ commandLine_mem_sourcesOf u hu) (Nat.not_le.2 hlt)

/-- **What is loaded**, one setting at a time: the merged layer decides, whatever
the numbers say. -/
theorem taken_of_loadSettings (h : w.loadSettings a stem = .ok s) :
    ∃ file environment, w.fileLayer a.config = .ok file
      ∧ (Source.environment stem).layer w = .ok environment
      ∧ ∀ {α : Type} (x : Setting α),
        x.taken s = (((x.given a.layer).or ((x.given environment).or (x.given file))).map
          x.normal).or (x.taken .defaults) := by
  obtain ⟨l, hl, hbuild⟩ := bind_eq_ok_iff.1 h
  obtain ⟨file, hfile, hreadable, rfl⟩ := layers_eq_ok_iff.1 hl
  obtain ⟨⟨⟩, -, hs⟩ := bind_eq_ok_iff.1 hbuild
  obtain rfl := Except.ok.inj hs
  refine ⟨file, _, hfile, Environment.layer_eq_ok_iff.2 ⟨hreadable, rfl⟩, fun x => ?_⟩
  rw [Setting.taken_settings, Setting.given_onto, Setting.given_onto]

/-- **The source that goes first by its priority counts**, unless it is a file
and the environment says something else. Where both say something, and the
command line nothing, it is the environment that counts. Where no source says
anything, it is the default. -/
theorem taken_iff_of_isForemost (h : w.loadSettings a stem = .ok s) (x : Setting α) :
    (∀ source v, w.IsForemost a stem x source v →
        (x.taken s = some (x.normal v)
          ↔ ∀ path, source = .file path → ∀ u, (Source.environment stem).Sets w x u →
              x.normal u = x.normal v))
      ∧ (∀ u, (Source.environment stem).Sets w x u →
          (∀ v, ¬ (Source.commandLine a).Sets w x v) → x.taken s = some (x.normal u))
      ∧ ((∀ source ∈ w.sourcesOf a stem, ∀ v, ¬ source.Sets w x v) →
          x.taken s = x.taken .defaults) := by
  obtain ⟨file, environment, hfile, henvironment, htaken⟩ := taken_of_loadSettings h
  have hcommand : (Source.commandLine a).layer w = .ok a.layer := rfl
  rw [htaken]
  refine ⟨fun source v hforemost => ?_, fun u hu hnone => ?_, fun hnone => ?_⟩
  · obtain ⟨path, hpath, rfl⟩ | rfl | rfl := mem_sourcesOf_iff.1 hforemost.mem
    · -- a file goes first: the command line is silent, the environment may not be
      rw [hforemost.given_arguments (by simp [Source.priority]),
        (given_fileLayer_iff hfile).2 ⟨path, hpath, hforemost.sets⟩]
      cases hu : x.given environment <;> simp [Source.sets_iff henvironment, hu]
    · rw [hforemost.given_arguments (by simp [Source.priority]),
        (Source.sets_iff henvironment).1 hforemost.sets]
      simp
    · rw [(Source.sets_iff hcommand).1 hforemost.sets]
      simp
  · rw [(Source.forall_not_sets_iff hcommand).1 hnone, (Source.sets_iff henvironment).1 hu]
    rfl
  · rw [(Source.forall_not_sets_iff hcommand).1 (hnone _ commandLine_mem_sourcesOf),
      (Source.forall_not_sets_iff henvironment).1 (hnone _ environment_mem_sourcesOf),
      given_fileLayer_eq_none hfile fun path hpath =>
        hnone _ (mem_sourcesOf_iff.2 (.inl ⟨path, hpath, rfl⟩))]
    rfl

/-- A workspace with a depth in its file of settings and one in its
environment. -/
def withDepths (file environment : String) : Workspace :=
  ⟨.directory true [(".tfdeps.toml", .file (some ("max_depth = " ++ file)))], ⟨"/"⟩,
    .ofList [("TFDEPS_MAX_DEPTH", environment)] compare⟩

/-- A file whose depth the environment repeats counts. -/
theorem taken_withDepths_same :
    (withDepths "5" "5").loadSettings .empty "TFDEPS"
        = .ok { Settings.defaults with maxDepth := some 5 }
      ∧ (withDepths "5" "5").IsForemost .empty "TFDEPS" Setting.maxDepth
          (.file ⟨"/.tfdeps.toml"⟩) 5
      ∧ Setting.maxDepth.taken { Settings.defaults with maxDepth := some 5 } = some 5 := by
  have hload : (withDepths "5" "5").loadSettings .empty "TFDEPS"
      = .ok { Settings.defaults with maxDepth := some 5 } := by decide +kernel
  have hforemost : (withDepths "5" "5").IsForemost .empty "TFDEPS" Setting.maxDepth
      (.file ⟨"/.tfdeps.toml"⟩) 5 :=
    isForemost_file (by decide +kernel)
      ⟨{ Layer.empty with maxDepth := some 5 }, by decide +kernel, rfl⟩ rfl
  have henvironment : (Source.environment "TFDEPS").layer (withDepths "5" "5")
      = .ok { Layer.empty with maxDepth := some 5 } := by decide +kernel
  refine ⟨hload, hforemost, ((taken_iff_of_isForemost hload .maxDepth).1 _ 5 hforemost).2 ?_⟩
  intro path _ u hu
  exact (Option.some.inj ((Source.sets_iff henvironment).1 hu)).symm

/-- **A file goes first and does not count**: the depth of the environment is
taken, though its number is the smaller one. -/
theorem taken_withDepths_ne :
    (withDepths "5" "7").IsForemost .empty "TFDEPS" Setting.maxDepth
        (.file ⟨"/.tfdeps.toml"⟩) 5
      ∧ ∃ s, (withDepths "5" "7").loadSettings .empty "TFDEPS" = .ok s
        ∧ Setting.maxDepth.taken s = some 7 := by
  constructor
  · exact isForemost_file (by decide +kernel)
      ⟨{ Layer.empty with maxDepth := some 5 }, by decide +kernel, rfl⟩ rfl
  · exact ⟨{ Settings.defaults with maxDepth := some 7 }, by decide +kernel, rfl⟩

end Workspace

end StackGraph
