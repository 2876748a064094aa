import StackGraph.Failure
import StackGraph.Settings
import StackGraph.Text.Number
import StackGraph.Ordered
/-!
# Settings from the environment

A layer of settings in environment variables, whose names have a common first part. A variable that
holds only blanks counts as unset.
-/

namespace StackGraph

/-- The variables of an environment whose names start with a given text and an underscore. -/
structure Environment where
  values : NameMap String
  /-- The first part of the names. -/
  stem : String

namespace Environment

/-- The keys of the settings, as they stand behind the underscore. -/
def keys : List String :=
  ["SCAN_PATH", "EXCLUDE", "MAX_DEPTH", "OUTPUT_FORMAT", "ORCHESTRATION_FILE", "MODULE_EXTENSION"]

/-- The value of a key. -/
def get? (e : Environment) (key : String) : Option String :=
  (e.values[e.stem ++ "_" ++ key]?).filter fun value => !(Text.trim value.toList).isEmpty

/-- Whether any setting is given. -/
def isGiven (e : Environment) : Bool := keys.any fun key => (e.get? key).isSome

/-- The patterns in a list with commas, without the blanks around them. -/
def patterns (value : String) : List String :=
  ((Text.splitOn (· == ',') value.toList).map fun piece => String.ofList (Text.trim piece)).filter
    (!·.isEmpty)

/-- The depth that is given. -/
def depth (e : Environment) : Except Failure (Option Nat) :=
  match e.get? "MAX_DEPTH" with
  | none => .ok none
  | some value =>
    match Text.word? (Text.trim value.toList) with
    | some depth => .ok (some depth)
    | none =>
      .error (.setting (e.stem ++ "_MAX_DEPTH must be a positive integer, got '" ++ value ++ "'"))

/-- The output format that is given. -/
def format (e : Environment) : Except Failure (Option OutputFormat) :=
  match e.get? "OUTPUT_FORMAT" with
  | none => .ok none
  | some name =>
    match OutputFormat.ofAnyCase? name with
    | some format => .ok (some format)
    | none => .error (.unknownFormat name)

/-- The layer of settings that the variables give. -/
def layer (e : Environment) : Except Failure Layer := do
  let depth ← e.depth
  let format ← e.format
  return { Layer.empty with
    scanPath := (e.get? "SCAN_PATH").map Path.mk
    excludes := (e.get? "EXCLUDE").map patterns
    maxDepth := depth
    format := format
    orchestrationFile := e.get? "ORCHESTRATION_FILE"
    moduleExtension := e.get? "MODULE_EXTENSION" }

end Environment

end StackGraph
