import StackGraph.Failure
import StackGraph.Settings.File
import StackGraph.Workspace
/-!
# Delivery

Files that a run leaves behind: a report, and a new file of settings.
-/

namespace StackGraph

namespace Workspace

/-- The workspace after a report has been written to a file. The directory of the file must exist.
-/
def writeReport (w : Workspace) (file : Path) (text : String) : Except Failure Workspace := do
  if let some parent := file.parent? then
    if !parent.text.isEmpty && !w.isDirectory parent then throw (.outputDirectoryNotFound parent)
  (w.write file text).mapError fun e => .fileNotWritten file e.text

/-- The workspace after a new file of settings has been written, with the directories above it. -/
def writeInitialSettings (w : Workspace) (file : Path) : Except Failure Workspace := do
  let missing := file.parent?.filter fun parent =>
    !parent.text.isEmpty && !w.hasAnything parent
  let w ← match missing with
    | some parent =>
      (w.makeDirectories parent).mapError fun e => .atDirectory parent ⟨e.text, false⟩
    | none => .ok w
  (w.write file Layer.initialText).mapError fun e => .fileNotWritten file e.text

end Workspace

end StackGraph
