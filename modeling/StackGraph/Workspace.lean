import StackGraph.FileTree
import StackGraph.Ordered
/-!
# Workspaces

What a run can see: the files, the directory it runs in and the variables of its environment.
Relative paths start at that directory.

Reading changes nothing; writing gives a new workspace. `Workspace.write` makes a file or replaces
its content, also through a link whose target is free.
-/

namespace StackGraph

/-- The files, the current directory and the environment of a run. -/
structure Workspace where
  files : FileTree
  /-- The current directory, an absolute path. -/
  directory : Path
  /-- The variables of the environment with their values. -/
  environment : NameMap String

namespace Workspace

/-- Where a path leads to. -/
def place (w : Workspace) (p : Path) (purpose : Purpose) : Except FileError FileTree.Place :=
  match FileError.ofPath? p with
  | some e => .error e
  | none => w.files.place (w.directory.join p) purpose

/-- The node that a path leads to, with its location. -/
def find (w : Workspace) (p : Path) (purpose : Purpose) :
    Except FileError (Location × FileTree) := do
  match ← w.place p purpose with
  | ⟨location, some node⟩ => .ok (location, node)
  | ⟨_, none⟩ => .error .notFound

/-- Whether a path leads to a node of the given sort. -/
def leadsTo (w : Workspace) (p : Path) (sort : FileTree → Bool) : Bool :=
  match w.find p .target with
  | .ok (_, node) => sort node
  | .error _ => false

/-- Whether a path leads to a directory. -/
def isDirectory (w : Workspace) (p : Path) : Bool := w.leadsTo p FileTree.isDirectory

/-- Whether a path leads to a file. -/
def isFile (w : Workspace) (p : Path) : Bool := w.leadsTo p FileTree.isFile

/-- Whether a path leads to anything. -/
def hasAnything (w : Workspace) (p : Path) : Bool := w.leadsTo p fun _ => true

/-- Whether a path leads to a directory in which nothing may be changed. -/
def isReadOnly (w : Workspace) (p : Path) : Bool :=
  w.leadsTo p fun
    | .directory writable _ | .closedDirectory writable => !writable
    | _ => false

/-- The text of the file that a path leads to. -/
def readText (w : Workspace) (p : Path) : Except FileError String := do
  match ← w.find p .target with
  | (_, .file (some text)) => .ok text
  | (_, .file none) => .error .notText
  | (_, .directory ..) => .error .isDirectory
  | (_, .link _) => .error .tooManyLinks
  | (_, .closedFile) | (_, .closedDirectory _) => .error .permissionDenied

/-- The workspace after a text has been written to a file. A path that leads to a directory cannot
be written to, nor can a file that may not be opened. -/
def write (w : Workspace) (p : Path) (text : String) : Except FileError Workspace := do
  let place ← w.place p .writing
  match place.node with
  | some (.directory ..) | some (.closedDirectory _) => .error .isDirectory
  | some .closedFile => .error .permissionDenied
  | _ => .ok { w with files := w.files.put place.location (.file (some text)) }

/-- A path without the slashes at its end; the root keeps its own. -/
def withoutSlash (p : Path) : Path :=
  let kept := (p.text.toList.reverse.dropWhile (· == '/')).reverse
  if kept.isEmpty then p else ⟨String.ofList kept⟩

/-- The workspace after a directory has been made in an existing one. Slashes may follow its
name. -/
def makeDirectory (w : Workspace) (p : Path) : Except FileError Workspace := do
  if let some e := FileError.ofPath? p then throw e
  let place ← w.place (withoutSlash p) .entry
  match place.node with
  | some _ => .error .alreadyExists
  | none => .ok { w with files := w.files.put place.location (.directory true []) }

/-- The workspace after a directory has been made, unless it is there already. -/
def ensureDirectory (w : Workspace) (p : Path) : Except FileError Workspace :=
  match w.makeDirectory p with
  | .ok made => .ok made
  | .error e => if w.isDirectory p then .ok w else .error e

/-- The paths above a path, from the nearest one on, in at most as many steps as given. -/
def pathsAbove : Nat → Path → List Path
  | 0, _ => []
  | steps + 1, p =>
    match p.parent? with
    | none => []
    | some above => above :: pathsAbove steps above

/-- Makes a directory after those above it that are missing, the nearest one first in `above`. -/
def makeWithin (w : Workspace) (p : Path) (above : List Path) : Except FileError Workspace :=
  if p.text.isEmpty then .ok w
  else
    match w.ensureDirectory p, above with
    | .error .notFound, parent :: further => do
      (← w.makeWithin parent further).ensureDirectory p
    | outcome, _ => outcome

/-- The workspace after a directory and all missing directories above it have been made. -/
def makeDirectories (w : Workspace) (p : Path) : Except FileError Workspace :=
  w.makeWithin p (pathsAbove p.text.length p)

end Workspace

end StackGraph
