import StackGraph.Failure
import StackGraph.Settings
import StackGraph.Text.Number
import StackGraph.Toml.Reader
/-!
# Files of settings

A layer of settings in TOML. Every setting has a name and a type; a value of another type makes the
file malformed, while unknown names are passed over. Values that no run can use are refused as early
as they are read (`Layer.check`), each with the name of the file.

`Layer.initialText` is what a new file of settings says; it gives every default a place.
-/

namespace StackGraph

namespace Toml

/-- A text. -/
def Value.text? : Value → Option String
  | .string text => some text
  | _ => none

/-- A truth value. -/
def Value.bool? : Value → Option Bool
  | .bool value => some value
  | _ => none

/-- A natural number that fits in a word. -/
def Value.word? : Value → Option Nat
  | .integer (.ofNat n) => if n < Text.wordCount then some n else none
  | _ => none

/-- A list of texts. -/
def Value.texts? : Value → Option (List String)
  | .array _ items => items.mapM Value.text?
  | _ => none

/-- An output format: its name in small letters, alone or as the only name in a table, with nothing
in it. -/
def Value.format? : Value → Option OutputFormat
  | .string name => OutputFormat.ofName? name
  | .table _ [(name, .array _ [])] => OutputFormat.ofName? name
  | .table _ [(name, .table _ [])] => OutputFormat.ofName? name
  | _ => none

/-- The setting of a name, if it is there; nothing if its value has another type. -/
def Entries.setting? {α : Type} (es : Entries) (name : String) (read : Value → Option α) :
    Option (Option α) :=
  match es.get? name with
  | none => some none
  | some value => (read value).map some

end Toml

namespace Layer

/-- The layer that some entries give. -/
def ofToml? (es : Toml.Entries) : Option Layer := do
  let path (v : Toml.Value) : Option Path := v.text?.map Path.mk
  return {
    scanPath := ← es.setting? "scan_path" path
    excludes := ← es.setting? "exclude_patterns" Toml.Value.texts?
    maxDepth := ← es.setting? "max_depth" Toml.Value.word?
    format := ← es.setting? "output_format" Toml.Value.format?
    outputFile := ← es.setting? "output_file" path
    parallel := ← es.setting? "parallel" Toml.Value.bool?
    quiet := ← es.setting? "quiet" Toml.Value.bool?
    verbose := ← es.setting? "verbose" Toml.Value.bool?
    followLinks := ← es.setting? "follow_links" Toml.Value.bool?
    colors := ← es.setting? "use_colors" Toml.Value.bool?
    progress := ← es.setting? "show_progress" Toml.Value.bool?
    timestamp := ← es.setting? "include_timestamp" Toml.Value.bool?
    orchestrationFile := ← es.setting? "orchestration_file_name" Toml.Value.text?
    moduleExtension := ← es.setting? "module_extension" Toml.Value.text? }

/-- What is wrong with a setting in a file. -/
inductive Problem where
  | emptyScanPath
  | emptyExclude
  | invalidExclude (text : String) (cause : GlobError)
  | zeroDepth
  | emptyOutputFile
  /-- The name of orchestration files is empty or a path. -/
  | notBareName
  | emptyExtension
deriving DecidableEq, Repr

/-- The failure that a problem in a file ends a run with. -/
def Problem.failure (file : Path) : Problem → Failure
  | emptyScanPath => .setting ("Invalid empty scan_path in config file: " ++ file.text)
  | emptyExclude => .setting ("Empty exclude pattern in config file: " ++ file.text)
  | invalidExclude text cause =>
    .during ("Invalid exclude pattern '" ++ text ++ "' in config file " ++ file.text) cause.text
  | zeroDepth =>
    .setting ("Invalid max_depth 0 in config file: " ++ file.text ++ ". Must be at least 1.")
  | emptyOutputFile => .setting ("Invalid empty output_file in config file: " ++ file.text)
  | notBareName =>
    .setting ("orchestration_file_name must be a bare file name in config file: " ++ file.text)
  | emptyExtension => .setting ("Invalid empty module_extension in config file: " ++ file.text)

/-- Whether a text can name a file in any directory. -/
def isBareName (name : String) : Bool :=
  !name.isEmpty && !name.toList.any fun c => c == '/' || c == '\\'

/-- What is wrong with a pattern. -/
def excludeProblem? (text : String) : Option Problem :=
  if text.isEmpty then some .emptyExclude
  else
    match Glob.read text with
    | .ok _ => none
    | .error e => some (.invalidExclude text e)

/-- The first problem of a layer. -/
def problem? (l : Layer) : Option Problem :=
  (if l.scanPath = some ⟨""⟩ then some .emptyScanPath else none) <|>
    (l.excludes.getD []).findSome? excludeProblem? <|>
    (if l.maxDepth = some 0 then some .zeroDepth else none) <|>
    (if l.outputFile = some ⟨""⟩ then some .emptyOutputFile else none) <|>
    (if l.orchestrationFile.any (!isBareName ·) then some .notBareName else none) <|>
    (if l.moduleExtension.any fun e => (bareExtension e).isEmpty then some .emptyExtension
    else none)

/-- The layer that the text of a file gives. -/
def ofText (file : Path) (text : String) : Except Failure Layer :=
  match (Toml.read? text).bind ofToml? with
  | none => .error (.settingsMalformed file "not valid TOML, or a setting has the wrong type")
  | some l =>
    match l.problem? with
    | some p => .error (p.failure file)
    | none => .ok l

/-- The text of a new file of settings. -/
def initialText : String :=
  String.join ([
    "# tfdeps configuration",
    "#",
    "# Precedence: command-line flags > TFDEPS_* environment variables > this file > defaults.",
    "",
    "# Root of the configuration tree to scan",
    "# scan_path = \".\"",
    "",
    "# Glob patterns for directories or files to skip. Matched against the entry",
    "# name and against its path relative to scan_path.",
    "exclude_patterns = [\".terraform\", \".terragrunt-cache\", \".git\"]",
    "",
    "# Maximum directory depth to traverse (unlimited when unset)",
    "# max_depth = 10",
    "",
    "# Output format: json, dot, mermaid or html",
    "output_format = \"json\"",
    "",
    "# Write the report to a file instead of stdout",
    "# output_file = \"deps.json\"",
    "",
    "# Parse files on a thread pool",
    "parallel = true",
    "",
    "# Follow symbolic links. Loops are reported as diagnostics.",
    "follow_links = false",
    "",
    "# Colors and progress bars on stderr",
    "use_colors = true",
    "show_progress = true",
    "",
    "# Include generated_at in the report. Disable for byte-identical reruns.",
    "include_timestamp = true",
    "",
    "# File recognition",
    "orchestration_file_name = \"terragrunt.hcl\"",
    "module_extension = \"tf\""].map (· ++ "\n"))

end Layer

end StackGraph
