import StackGraph.Discovery
import StackGraph.Document.Lowering
import StackGraph.Graph.Build
import StackGraph.Report
/-!
# Analysis

From the files of a tree to its report. A file that cannot be read or is not valid leaves a
diagnostic and an empty document, so one bad file never hides the others: an analysis fails only if
the scan root is not a directory or a pattern cannot be read.
-/

namespace StackGraph

/-- The message for a file that is not valid. -/
def invalidSyntax : String := "<hcl syntax error>"

namespace ConfigFile

/-- A file of which nothing is known but the given diagnostic. -/
def failure (root : ScanRoot) (path : Path) (kind : FileKind) (d : Diagnostic) : ConfigFile :=
  ⟨path, root.relativePath path, kind, .empty, [d], true⟩

/-- A file with the given text. Blocks that violate the vocabulary of its kind are dropped with a
diagnostic each. -/
def ofText (root : ScanRoot) (path : Path) (kind : FileKind) (text : String) : ConfigFile :=
  let relative := root.relativePath path
  match Document.read? text with
  | none => failure root path kind (.syntaxError relative invalidSyntax)
  | some d =>
    let (document, violations) := d.checked kind
    ⟨path, relative, kind, document, violations.map fun v => .grammar relative v.message, false⟩

/-- A file of the workspace. -/
def read (w : Workspace) (root : ScanRoot) (path : Path) (kind : FileKind) : ConfigFile :=
  match w.readText path with
  | .ok text => ofText root path kind text
  | .error e =>
    failure root path kind
      (.filesystem (root.relativePath path) ("could not read file: " ++ e.text))

end ConfigFile

namespace Workspace

/-- The report on a tree, made at a point in time. -/
def analyze (w : Workspace) (s : Settings) (generatedAt : Option Timestamp) :
    Except Failure Report := do
  if !w.isDirectory s.scanPath then throw (.invalidPath s.scanPath)
  let found ← w.discover s
  let root : ScanRoot := ⟨s.scanPath⟩
  let fragments := found.files.map fun (path, kind) => Fragment.ofFile root (.read w root path kind)
  let build := Graph.build root fragments
  return build.graph.report s.scanPath generatedAt
    (Diagnostic.arrange (build.diagnostics ++ found.diagnostics))

end Workspace

end StackGraph
