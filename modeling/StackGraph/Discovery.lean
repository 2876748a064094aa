import StackGraph.Failure
import StackGraph.Fragment.Extract
import StackGraph.Settings
import StackGraph.Workspace
/-!
# Discovery

The configuration files below the scan root. The tree is visited depth first, the entries of a
directory in the order of their names. An entry is left out, with everything below it, if a pattern
matches its name or its path from the root; the root itself is never left out. With a limit on the
depth, an entry at that depth is still seen but not entered.

Links are followed only on demand, except for one that is the root. A link that cannot be followed,
or that leads back to a directory it lies in, leaves a diagnostic and nothing else, and so does a
directory that cannot be opened.
-/

namespace StackGraph

/-- What decides about the entries of a tree. -/
structure Survey where
  root : ScanRoot
  excludes : List Glob
  maxDepth : Option Nat
  followLinks : Bool

/-- What a visit of a tree meets. -/
inductive Visit where
  /-- A file that is not left out. -/
  | file (path : Path)
  | problem (d : Diagnostic)

namespace Visit

/-- The path, if the visit met a file. -/
def file? : Visit → Option Path
  | file path => some path
  | problem _ => none

/-- The diagnostic, if the visit met a problem. -/
def problem? : Visit → Option Diagnostic
  | file _ => none
  | problem d => some d

end Visit

/-- A directory that is being visited: its place in the tree and the path that led there. -/
abbrev Entered := Location × Path

namespace Survey

/-- Whether an entry is left out. -/
def isExcluded (s : Survey) (name : String) (path : Path) : Bool :=
  let relative := s.root.relativePath path
  s.excludes.any fun g => g.matchesText name || g.matchesText relative

/-- Whether the entries of a directory at a depth are seen. -/
def descends (s : Survey) (depth : Nat) : Bool := s.maxDepth.all (depth < ·)

/-- The diagnostic for an entry that cannot be read. -/
def unreadable (s : Survey) (path : Path) (e : FileError) : Visit :=
  .problem (.filesystem (s.root.relativePath path) ("could not read entry: " ++ e.text))

/-- The diagnostic for a link that is followed to a directory that may not be opened. It does not
show where the link is: what fails is the check for loops, which is not about an entry. -/
def unopened : Visit :=
  .problem (.filesystem "." ("could not read entry: " ++ FileError.permissionDenied.text))

/-- The diagnostic for a link to a directory that it lies in. -/
def loop (s : Survey) (path ancestor : Path) : Visit :=
  .problem (.filesystem (s.root.relativePath path)
    ("symbolic link loop back to " ++ s.root.moduleId ancestor))

mutual

/-- What is met below a directory at a depth. The directory and those above it are given nearest
first; `onLink` says what is met at a link, given these, the name of the link and its path. -/
def below (s : Survey) (onLink : List Entered → String → Path → Nat → List Visit)
    (here : Entered) (above : List Entered) (depth : Nat) : FileTree → List Visit
  | .directory _ entries =>
    if !s.descends depth then []
    else if let some e := FileError.ofPath? here.2 then [s.unreadable here.2 e]
    else
      (sortBy (compareOn Prod.fst) (s.belowEntries onLink here above (depth + 1) entries)).flatMap
        Prod.snd
  | .closedDirectory _ =>
    if !s.descends depth then []
    else [s.unreadable here.2 ((FileError.ofPath? here.2).getD .permissionDenied)]
  | _ => []
termination_by structural t => t

/-- What is met at each entry of a directory, with the names of the entries. -/
def belowEntries (s : Survey) (onLink : List Entered → String → Path → Nat → List Visit)
    (here : Entered) (above : List Entered) (depth : Nat) :
    List (String × FileTree) → List (String × List Visit)
  | [] => []
  | (name, node) :: rest =>
    let path := here.2.child name
    let found := s.below onLink (here.1 ++ [name], path) (here :: above) depth node
    let visits := match node with
      | .link _ => if s.followLinks then onLink (here :: above) name path depth else []
      | .file _ | .closedFile => if s.isExcluded name path then [] else [.file path]
      | .directory .. | .closedDirectory _ => if s.isExcluded name path then [] else found
    (name, visits) :: s.belowEntries onLink here above depth rest
termination_by structural entries => entries

end

/-- What is met at a link that is followed, where at most the given number of links have been
followed to directories one within the other. -/
def atLink (w : Workspace) (s : Survey) :
    Nat → List Entered → String → Path → Nat → List Visit
  | 0, _, _, _, _ => []
  | links + 1, above, name, path, depth =>
    match w.find path .target with
    | .error e => [s.unreadable path e]
    | .ok (location, .directory writable entries) =>
      match above.find? fun entered => entered.1 == location with
      | some (_, ancestor) => [s.loop path ancestor]
      | none =>
        if s.isExcluded name path then []
        else s.below (atLink w s links) (location, path) above depth (.directory writable entries)
    | .ok (_, .closedDirectory _) => [unopened]
    | .ok _ => if s.isExcluded name path then [] else [.file path]

/-- What is met from the scan root on. A link to a file is no file unless links are followed. Nested
links to directories lead to different ones, so there are no more of them than nodes. -/
def visits (w : Workspace) (s : Survey) : List Visit :=
  let root := s.root.path
  match w.find root .entry, w.find root .target with
  | .error e, _ => [s.unreadable root e]
  | _, .error e => [s.unreadable root e]
  | .ok (_, node), .ok (location, target) =>
    match target with
    | .directory .. => s.below (atLink w s w.files.size) (location, root) [] 0 target
    | .closedDirectory _ =>
      if s.followLinks && !node.isDirectory then [unopened]
      else s.below (atLink w s w.files.size) (location, root) [] 0 target
    | _ => if node.isFile || s.followLinks then [.file root] else []

end Survey

/-- The kind of a configuration file, by its name and extension. -/
def Settings.classify (s : Settings) (path : Path) : Option FileKind :=
  path.fileName?.bind fun name =>
    if name = s.orchestrationFile then some .orchestration
    else if path.extension? = some s.moduleExtension then some .moduleDefinition
    else none

/-- The patterns of a list of texts. -/
def Glob.readAll (texts : List String) : Except Failure (List Glob) :=
  texts.mapM fun text => (Glob.read text).mapError .invalidGlob

/-- The configuration files of a tree, each list in the order of paths. -/
structure Discovery where
  orchestration : List Path
  moduleDefinitions : List Path
  /-- The problems in the order in which they were met. -/
  diagnostics : List Diagnostic

namespace Discovery

/-- The files with their kinds, in the order of paths. -/
def files (d : Discovery) : List (Path × FileKind) :=
  sortBy (fun a b => (Path.compare a.1 b.1).then (FileKind.compare a.2 b.2))
    (d.orchestration.map (·, .orchestration) ++ d.moduleDefinitions.map (·, .moduleDefinition))

/-- The number of files. -/
def size (d : Discovery) : Nat := d.orchestration.length + d.moduleDefinitions.length

/-- The configuration files that some visits met. -/
def ofVisits (s : Settings) (visits : List Visit) : Discovery :=
  let paths := visits.filterMap Visit.file?
  let ofKind (kind : FileKind) : List Path :=
    sortBy Path.compare (paths.filter fun p => s.classify p == some kind)
  ⟨ofKind .orchestration, ofKind .moduleDefinition, visits.filterMap Visit.problem?⟩

end Discovery

/-- Looks for configuration files. Fails only on a pattern that cannot be read. -/
def Workspace.discover (w : Workspace) (s : Settings) : Except Failure Discovery := do
  let excludes ← Glob.readAll s.excludes
  .ok (.ofVisits s (Survey.visits w ⟨⟨s.scanPath⟩, excludes, s.maxDepth, s.followLinks⟩))

end StackGraph
