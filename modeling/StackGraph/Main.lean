import StackGraph.Run
import Std.Time.DateTime.Timestamp
/-!
# The program

Runs the program on the files of the system. All decisions are made by `Workspace.run` on a picture
of the files that the run can see; this module takes the picture and delivers what the run leaves
behind.

Two parts of the system are looked at: the files of settings, which say where the tree is, and then
the tree itself with the directory for the output.
-/

namespace StackGraph

/-- A link that leads nowhere. -/
def brokenLink : FileTree := .link ⟨"/\x00"⟩

/-- A file with its content. -/
def loadFile (path : String) : IO FileTree := do
  try return .file (String.fromUTF8? (← IO.FS.readBinFile path))
  catch
    | .permissionDenied .. => return .closedFile
    | _ => return .file none

/-- The names of the entries of a directory, if it may be opened. -/
def loadNames (path : String) : IO (Option (List String)) := do
  let real ← IO.FS.realPath path
  try return some ((← real.readDir).toList.map fun entry => entry.fileName)
  catch
    | .permissionDenied .. => return none
    | e => throw e

mutual

/-- A file or directory with everything in it, by a path without links, and the targets of the links
in it. -/
partial def loadTree (path : String) : StateT (List String) IO FileTree := do
  let real ← IO.FS.realPath path
  if ← real.isDir then
    let some names ← loadNames path | return .closedDirectory true
    return .directory true (← names.mapM fun name => do
      return (name, ← loadEntry (if path = "/" then "/" ++ name else path ++ "/" ++ name)))
  else loadFile path

/-- An entry of a directory, by a path whose last part may be a link. -/
partial def loadEntry (path : String) : StateT (List String) IO FileTree := do
  try
    let real := (← IO.FS.realPath path).toString
    if real = path then loadTree path
    else
      modify (real :: ·)
      return .link ⟨real⟩
  catch _ => return brokenLink

end

/-- The location of a path whose links are not looked at. -/
def Workspace.location (w : Workspace) (p : Path) : Location :=
  (w.directory.join p).components.foldl (fun done component =>
    match component with
    | .name text => done ++ [text]
    | .up => done.dropLast
    | _ => done) []

/-- The absolute path of a location. -/
def pathOf (l : Location) : String := "/" ++ "/".intercalate l

/-- The workspace with a single file or an empty directory, if a path leads to one. -/
def addNode (w : Workspace) (p : Path) : IO Workspace := do
  if w.hasAnything p || p.text.isEmpty then return w
  let location := w.location p
  try
    let real ← IO.FS.realPath (pathOf location)
    let node ← if ← real.isDir then pure (.directory true []) else loadFile real.toString
    return { w with files := w.files.put location node }
  catch _ => return w

/-- The workspace with the trees at some real paths and, if links are followed, at the targets of
the links in them. -/
partial def addTargets (w : Workspace) (follow : Bool) : List String → IO Workspace
  | [] => return w
  | path :: rest => do
    if w.hasAnything ⟨path⟩ then addTargets w follow rest
    else
      let (tree, targets) ← (loadTree path).run []
      let w := { w with files := w.files.put (w.location ⟨path⟩) tree }
      addTargets w follow (if follow then targets ++ rest else rest)

/-- The workspace with the tree that a path leads to. -/
def addTree (w : Workspace) (p : Path) (follow : Bool) : IO Workspace := do
  if p.text.isEmpty then return w
  let location := w.location p
  try
    let (tree, targets) ← (loadTree (← IO.FS.realPath (pathOf location)).toString).run []
    addTargets { w with files := w.files.put location tree } follow (if follow then targets else [])
  catch _ => return w

/-- The variables that a run looks at. -/
def loadVariables : IO (NameMap String) := do
  let names := ["HOME", "XDG_CONFIG_HOME"] ++
    Environment.keys.map fun key => variableStem ++ "_" ++ key
  names.foldlM (fun found name => do
    match ← IO.getEnv name with
    | some value => return found.insert name value
    | none => return found) ∅

/-- What a run with some arguments can see. -/
def loadWorkspace (arguments : Arguments) : IO Workspace := do
  let directory := (← IO.FS.realPath ".").toString
  let start : Workspace := ⟨.directory true [], ⟨directory⟩, ← loadVariables⟩
  let start ← addNode start ⟨directory⟩
  let places := arguments.config.toList ++ start.settingsFiles start.directory
  let w ← places.foldlM addNode start
  match w.layers arguments variableStem with
  | .error _ => return w
  | .ok layer =>
    let s := layer.settings
    let w ← addTree w s.scanPath s.followLinks
    (s.outputFile.toList.flatMap fun file => file :: file.parent?.toList).foldlM addNode w

/-- The files that a run may write. -/
def writtenFiles (w : Workspace) (arguments : Arguments) : List Path :=
  ⟨settingsFile⟩ :: match w.layers arguments variableStem with
    | .ok layer => layer.settings.outputFile.toList
    | .error _ => []

/-- Writes the files that differ after a run. -/
def writeFiles (before after : Workspace) (files : List Path) : IO Unit :=
  files.forM fun file => do
    match before.readText file, after.readText file with
    | .ok old, .ok new => if old ≠ new then IO.FS.writeFile (pathOf (after.location file)) new
    | .error _, .ok new => IO.FS.writeFile (pathOf (after.location file)) new
    | _, .error _ => return

end StackGraph

open StackGraph

/-- Runs the program. -/
def main (texts : List String) : IO UInt32 := do
  let arguments := (Arguments.read texts).toOption.getD .empty
  let w ← loadWorkspace arguments
  let now ← Std.Time.Timestamp.now
  let nanos := now.toNanosecondsSinceUnixEpoch.val
  let outcome := w.run texts ⟨nanos / 1000000000, (nanos % 1000000000).toNat⟩
  writeFiles w outcome.workspace (writtenFiles w arguments)
  (← IO.getStderr).putStr outcome.messages
  (← IO.getStdout).putStr outcome.output
  return if outcome.succeeded then 0 else 1
