import StackGraph.Proofs.FileTree
import StackGraph.Settings.Load
/-!
# Which settings count

Settings are merged layer by layer, and each layer is copied together from its
source field by field. What should come of it is said at once, and from the
sources themselves: a setting is the one that the command line gives, or else
the environment, or else the file, or else the default (`Settings.chosen`).

That a source with nothing to say is passed over makes no difference, because
its layer is the empty one (`Environment.given_eq_empty`), and layers form a
monoid. A source can also make the loading fail: a variable of the environment
that cannot be read does (`Environment.IsReadable`), even where the command line
hides its value. So settings are loaded exactly if there is a file layer, the
environment can be read and the chosen settings pass the check
(`Workspace.loadSettings_exactly`).
-/

namespace StackGraph

/-! ## Layers -/

/-- **Layers are put on each other in any grouping.** -/
theorem Layer.onto_assoc (a b c : Layer) : (a.onto b).onto c = a.onto (b.onto c) := by
  simp [onto, Option.or_assoc]

/-! ## What the sources say -/

/-- The first value that is given. -/
def firstGiven {α : Type} (values : List (Option α)) : Option α := values.findSome? id

@[simp] theorem firstGiven_nil {α : Type} : firstGiven ([] : List (Option α)) = none := rfl

@[simp] theorem firstGiven_cons {α : Type} {value : Option α} {values : List (Option α)} :
    firstGiven (value :: values) = value.or (firstGiven values) := by
  cases value <;> rfl

/-- What a switch of the command line says: nothing if it is absent. -/
def whenOn {α : Type} (switch : Bool) (value : α) : Option α :=
  if switch then some value else none

namespace Environment

variable {e : Environment} {l : Layer}

/-- Whether the values of the variables have a meaning, if they are given. -/
structure IsReadable (e : Environment) : Prop where
  depth : ∀ value ∈ e.get? "MAX_DEPTH", (Text.word? (Text.trim value.toList)).isSome
  format : ∀ value ∈ e.get? "OUTPUT_FORMAT", (OutputFormat.ofAnyCase? value).isSome

/-- The depth that the environment gives. -/
def depth? (e : Environment) : Option Nat :=
  (e.get? "MAX_DEPTH").bind fun value => Text.word? (Text.trim value.toList)

/-- The format that the environment gives. -/
def format? (e : Environment) : Option OutputFormat :=
  (e.get? "OUTPUT_FORMAT").bind OutputFormat.ofAnyCase?

end Environment

/-- **The settings that count**: for each one the value that the command line
gives, or else the environment, or else the file, or else the default. -/
def Settings.chosen (a : Arguments) (e : Environment) (file : Layer) : Settings where
  scanPath :=
    (firstGiven [a.path, (e.get? "SCAN_PATH").map Path.mk, file.scanPath]).getD defaults.scanPath
  excludes :=
    (firstGiven [a.excludes, (e.get? "EXCLUDE").map Environment.patterns, file.excludes]).getD
      defaults.excludes
  maxDepth := firstGiven [a.maxDepth, e.depth?, file.maxDepth, defaults.maxDepth]
  format := (firstGiven [a.format, e.format?, file.format]).getD defaults.format
  outputFile := firstGiven [a.outputFile, file.outputFile, defaults.outputFile]
  parallel := (firstGiven [whenOn a.noParallel false, file.parallel]).getD defaults.parallel
  quiet := (firstGiven [whenOn a.quiet true, file.quiet]).getD defaults.quiet
  verbose := (firstGiven [whenOn a.verbose true, file.verbose]).getD defaults.verbose
  followLinks :=
    (firstGiven [whenOn a.followLinks true, file.followLinks]).getD defaults.followLinks
  colors := (firstGiven [whenOn a.noColors false, file.colors]).getD defaults.colors
  progress := (firstGiven [whenOn a.noProgress false, file.progress]).getD defaults.progress
  timestamp := (firstGiven [whenOn a.noTimestamp false, file.timestamp]).getD defaults.timestamp
  orchestrationFile :=
    (firstGiven [e.get? "ORCHESTRATION_FILE", file.orchestrationFile]).getD
      defaults.orchestrationFile
  moduleExtension :=
    ((firstGiven [e.get? "MODULE_EXTENSION", file.moduleExtension]).map bareExtension).getD
      defaults.moduleExtension

namespace Environment

variable {e : Environment} {l : Layer}

/-- The layer of the variables, as far as they can be read. -/
def given (e : Environment) : Layer :=
  { Layer.empty with
    scanPath := (e.get? "SCAN_PATH").map Path.mk
    excludes := (e.get? "EXCLUDE").map patterns
    maxDepth := e.depth?
    format := e.format?
    orchestrationFile := e.get? "ORCHESTRATION_FILE"
    moduleExtension := e.get? "MODULE_EXTENSION" }

theorem depth_eq_ok_iff {d : Option Nat} :
    e.depth = .ok d
      ↔ (∀ value ∈ e.get? "MAX_DEPTH", (Text.word? (Text.trim value.toList)).isSome)
        ∧ e.depth? = d := by
  rw [depth, depth?]
  cases e.get? "MAX_DEPTH" with
  | none => simp
  | some value => cases hword : Text.word? (Text.trim value.toList) <;> simp [hword]

theorem format_eq_ok_iff {f : Option OutputFormat} :
    e.format = .ok f
      ↔ (∀ value ∈ e.get? "OUTPUT_FORMAT", (OutputFormat.ofAnyCase? value).isSome)
        ∧ e.format? = f := by
  rw [format, format?]
  cases e.get? "OUTPUT_FORMAT" with
  | none => simp
  | some value => cases hname : OutputFormat.ofAnyCase? value <;> simp [hname]

/-- **The environment gives its layer** exactly if it can be read. -/
theorem layer_eq_ok_iff : e.layer = .ok l ↔ e.IsReadable ∧ e.given = l := by
  constructor
  · intro h
    obtain ⟨d, hd, h⟩ := bind_eq_ok_iff.1 h
    obtain ⟨f, hf, h⟩ := bind_eq_ok_iff.1 h
    obtain ⟨hdepth, rfl⟩ := depth_eq_ok_iff.1 hd
    obtain ⟨hformat, rfl⟩ := format_eq_ok_iff.1 hf
    exact ⟨⟨hdepth, hformat⟩, Except.ok.inj h⟩
  · rintro ⟨hreadable, rfl⟩
    rw [layer, depth_eq_ok_iff.2 ⟨hreadable.depth, rfl⟩, format_eq_ok_iff.2 ⟨hreadable.format, rfl⟩]
    rfl

/-- **An environment in which no setting is given says nothing**, and can be
read. -/
theorem of_not_isGiven (h : ¬ e.isGiven) : e.IsReadable ∧ e.given = .empty := by
  have hnone : ∀ key ∈ keys, e.get? key = none := by
    simpa [isGiven] using h
  simp only [keys, List.forall_mem_cons] at hnone
  obtain ⟨hpath, hexclude, hdepth, hformat, hfile, hextension, -⟩ := hnone
  constructor
  · constructor <;> simp [hdepth, hformat]
  · simp [given, depth?, format?, hpath, hexclude, hdepth, hformat, hfile, hextension, Layer.empty]

end Environment

/-! ## What is loaded -/

/-- **The merged layers give the chosen settings.** -/
theorem Settings.settings_onto {a : Arguments} {e : Environment} {file : Layer} :
    (a.layer.onto (e.given.onto file)).settings = chosen a e file := by
  simp [chosen, Layer.settings, Layer.onto, Arguments.layer, Environment.given, Layer.empty, whenOn,
    Option.or_assoc]

namespace Workspace

variable {w : Workspace} {a : Arguments} {stem : String} {l lower : Layer}

/-- The variables of the environment that settings are read from. -/
abbrev variablesOf (w : Workspace) (stem : String) : Environment := ⟨w.environment, stem⟩

/-- **A source with nothing to say is as good as an empty one**: the environment
puts the layer of its variables on another one, also where it is passed over. -/
theorem add_environment_eq_ok_iff :
    lower.add w (.environment stem) = .ok l
      ↔ (w.variablesOf stem).IsReadable ∧ (w.variablesOf stem).given.onto lower = l := by
  show (if (w.variablesOf stem).isGiven then (w.variablesOf stem).layer.map (·.onto lower)
    else .ok lower) = .ok l ↔ _
  by_cases hgiven : (w.variablesOf stem).isGiven
  · rw [if_pos hgiven]
    cases hlayer : (w.variablesOf stem).layer with
    | error e =>
      refine iff_of_false (by rintro ⟨⟩) fun h => ?_
      rw [Environment.layer_eq_ok_iff.2 ⟨h.1, rfl⟩] at hlayer
      cases hlayer
    | ok given =>
      obtain ⟨hreadable, rfl⟩ := Environment.layer_eq_ok_iff.1 hlayer
      rw [and_iff_right hreadable]
      exact iff_of_eq (Except.ok.injEq _ _)
  · obtain ⟨hreadable, hempty⟩ := Environment.of_not_isGiven hgiven
    rw [if_neg hgiven, hempty, Layer.empty_onto, and_iff_right hreadable, Except.ok.injEq]

/-- The merged layers: the command line on the environment on the file. -/
theorem layers_eq_ok_iff :
    w.layers a stem = .ok l
      ↔ ∃ file, w.fileLayer a.config = .ok file ∧ (w.variablesOf stem).IsReadable
        ∧ a.layer.onto ((w.variablesOf stem).given.onto file) = l := by
  rw [layers, bind_eq_ok_iff]
  refine exists_congr fun file => and_congr_right fun _ => ?_
  rw [bind_eq_ok_iff]
  constructor
  · rintro ⟨merged, hmerged, hl⟩
    obtain ⟨hreadable, rfl⟩ := add_environment_eq_ok_iff.1 hmerged
    exact ⟨hreadable, Except.ok.inj hl⟩
  · rintro ⟨hreadable, rfl⟩
    exact ⟨_, add_environment_eq_ok_iff.2 ⟨hreadable, rfl⟩, rfl⟩

/-- **The settings of a run are the chosen ones**, if they can be loaded at all:
there is a layer of the file, the environment can be read, and the settings pass
the check. Underneath, layers with the empty one form a monoid. -/
theorem loadSettings_exactly :
    (∀ (w : Workspace) (a : Arguments) (stem : String) (s : Settings),
      w.loadSettings a stem = .ok s
        ↔ ∃ file, w.fileLayer a.config = .ok file ∧ (w.variablesOf stem).IsReadable
          ∧ s = .chosen a (w.variablesOf stem) file ∧ s.check w = .ok ())
      ∧ (∀ x y z : Layer, (x.onto y).onto z = x.onto (y.onto z))
      ∧ ∀ l : Layer, l.onto .empty = l ∧ Layer.empty.onto l = l := by
  refine ⟨fun w a stem s => ?_, Layer.onto_assoc, fun l => ⟨l.onto_empty, l.empty_onto⟩⟩
  rw [loadSettings, bind_eq_ok_iff]
  constructor
  · rintro ⟨l, hl, hbuild⟩
    obtain ⟨file, hfile, hreadable, rfl⟩ := layers_eq_ok_iff.1 hl
    obtain ⟨⟨⟩, hcheck, hs⟩ := bind_eq_ok_iff.1 hbuild
    rw [Settings.settings_onto] at hcheck hs
    obtain rfl := Except.ok.inj hs
    exact ⟨file, hfile, hreadable, rfl, hcheck⟩
  · rintro ⟨file, hfile, hreadable, rfl, hcheck⟩
    refine ⟨_, layers_eq_ok_iff.2 ⟨file, hfile, hreadable, rfl⟩, bind_eq_ok_iff.2 ?_⟩
    rw [Settings.settings_onto]
    exact ⟨(), hcheck, rfl⟩

/-- The command line hides the depth of the environment, which hides that of the
file; the format of the file is hidden by nothing. -/
example :
    Settings.chosen { Arguments.empty with maxDepth := some 3, noColors := true }
        ⟨.ofList [("TFDEPS_MAX_DEPTH", "7"), ("TFDEPS_MODULE_EXTENSION", "..tofu")], "TFDEPS"⟩
        { Layer.empty with maxDepth := some 9, format := some .dot, colors := some true }
      = { Settings.defaults with
          maxDepth := some 3, format := .dot, colors := false, moduleExtension := "tofu" } := by
  decide

end Workspace

end StackGraph
