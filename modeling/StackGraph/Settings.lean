import StackGraph.OutputFormat
import StackGraph.Path
/-!
# Settings

What decides how a tree is scanned and how its report is delivered. Settings come in layers, each of
which may leave out any of them. `Layer.onto` puts one layer on another: a setting of the upper
layer hides that of the lower one. `Layer.settings` fills in the defaults for what no layer says.
-/

namespace StackGraph

/-- How a tree is scanned and its report delivered. -/
structure Settings where
  /-- The directory that is scanned. -/
  scanPath : Path
  /-- Patterns for the names and paths of entries that are left out. -/
  excludes : List String
  /-- How many levels below the scan root are visited. -/
  maxDepth : Option Nat
  format : OutputFormat
  /-- The file for the report; none means that it is printed. -/
  outputFile : Option Path
  /-- Whether files are read in parallel. The result is the same. -/
  parallel : Bool
  /-- Whether nothing but the report is shown. -/
  quiet : Bool
  /-- Whether the summary is complete. -/
  verbose : Bool
  /-- Whether symbolic links are followed. -/
  followLinks : Bool
  colors : Bool
  /-- Whether progress is shown. -/
  progress : Bool
  /-- Whether the report says when it was made. -/
  timestamp : Bool
  /-- The name of orchestration files. -/
  orchestrationFile : String
  /-- The extension of module definitions, without a point in front. -/
  moduleExtension : String
deriving DecidableEq, Repr

/-- The settings that one source gives. -/
structure Layer where
  scanPath : Option Path
  excludes : Option (List String)
  maxDepth : Option Nat
  format : Option OutputFormat
  outputFile : Option Path
  parallel : Option Bool
  quiet : Option Bool
  verbose : Option Bool
  followLinks : Option Bool
  colors : Option Bool
  progress : Option Bool
  timestamp : Option Bool
  orchestrationFile : Option String
  moduleExtension : Option String
deriving DecidableEq, Repr

namespace Settings

/-- The settings where nothing is said. -/
def defaults : Settings where
  scanPath := ⟨"."⟩
  excludes := [".terraform", ".terragrunt-cache", ".git"]
  maxDepth := none
  format := .json
  outputFile := none
  parallel := true
  quiet := false
  verbose := false
  followLinks := false
  colors := true
  progress := true
  timestamp := true
  orchestrationFile := "terragrunt.hcl"
  moduleExtension := "tf"

end Settings

/-- An extension without the points in front. -/
def bareExtension (extension : String) : String :=
  String.ofList (extension.toList.dropWhile (· == '.'))

namespace Layer

/-- The layer that says nothing. -/
def empty : Layer :=
  ⟨none, none, none, none, none, none, none, none, none, none, none, none, none, none⟩

/-- A layer on top of another one, whose settings it hides where it has its own. -/
def onto (upper lower : Layer) : Layer where
  scanPath := upper.scanPath <|> lower.scanPath
  excludes := upper.excludes <|> lower.excludes
  maxDepth := upper.maxDepth <|> lower.maxDepth
  format := upper.format <|> lower.format
  outputFile := upper.outputFile <|> lower.outputFile
  parallel := upper.parallel <|> lower.parallel
  quiet := upper.quiet <|> lower.quiet
  verbose := upper.verbose <|> lower.verbose
  followLinks := upper.followLinks <|> lower.followLinks
  colors := upper.colors <|> lower.colors
  progress := upper.progress <|> lower.progress
  timestamp := upper.timestamp <|> lower.timestamp
  orchestrationFile := upper.orchestrationFile <|> lower.orchestrationFile
  moduleExtension := upper.moduleExtension <|> lower.moduleExtension

/-- The settings of a layer, with the defaults for those it leaves out. An extension loses the
points in front of it. -/
def settings (l : Layer) : Settings :=
  let d := Settings.defaults
  { scanPath := l.scanPath.getD d.scanPath
    excludes := l.excludes.getD d.excludes
    maxDepth := l.maxDepth <|> d.maxDepth
    format := l.format.getD d.format
    outputFile := l.outputFile <|> d.outputFile
    parallel := l.parallel.getD d.parallel
    quiet := l.quiet.getD d.quiet
    verbose := l.verbose.getD d.verbose
    followLinks := l.followLinks.getD d.followLinks
    colors := l.colors.getD d.colors
    progress := l.progress.getD d.progress
    timestamp := l.timestamp.getD d.timestamp
    orchestrationFile := l.orchestrationFile.getD d.orchestrationFile
    moduleExtension := (l.moduleExtension.map bareExtension).getD d.moduleExtension }

/-- Putting a layer on the one that says nothing changes nothing. -/
@[simp]
theorem onto_empty (l : Layer) : l.onto empty = l := by
  cases l
  simp [onto, empty]

/-- The layer that says nothing hides nothing. -/
@[simp]
theorem empty_onto (l : Layer) : empty.onto l = l := by
  cases l
  simp [onto, empty]

end Layer

end StackGraph
