import StackGraph.Path
/-!
# Module ids

A module is a directory below the scan root, and its id is the path of the directory from there:
names joined by slashes, or a point for the root itself. Files are named the same way.

A path that is written in a file of a module is resolved to an id without looking at the file
system: it is taken from the module's directory, or from the scan root if it is absolute, and climbs
one directory for each pair of points. A file name ending in `.hcl` at its end is left out, so a
path to a unit's own file means the unit. Climbing above the root leaves nothing.
-/

namespace StackGraph

/-- The id of the module in the scan root. -/
def rootId : String := "."

namespace ModuleId

/-- The names that an id consists of. -/
def segments (id : String) : List (List Char) :=
  if id = rootId then [] else Text.splitOn (· == '/') id.toList

/-- The id that consists of the given names. -/
def ofSegments (names : List (List Char)) : String :=
  if names.isEmpty then rootId else String.ofList (Text.intercalate ['/'] names)

/-- The last name of an id; the root is a point. -/
def basename (id : String) : String :=
  String.ofList ((Text.splitOn (· == '/') id.toList).getLast?.getD [])

/-- The id without its last name; the root has no parent. -/
def parent? (id : String) : Option String :=
  if id = rootId then none
  else
    match (Text.splitOn (· == '/') id.toList).dropLast with
    | [] => some rootId
    | names => some (String.ofList (Text.intercalate ['/'] names))

/-- The id of a directory of the given name beside a module. -/
def sibling (id name : String) : Option String :=
  match parent? id with
  | none => none
  | some parent => if parent = rootId then some name else some (parent ++ "/" ++ name)

/-- Whether a segment is dropped as the name of a unit's own file. -/
def isUnitFile (segment : List Char) : Bool :=
  Text.hasStart ".hcl".toList.reverse segment.reverse

/-- Follows the segments of a path, from the names of a directory, last name first. -/
def climb : List (List Char) → List (List Char) → Option (List (List Char))
  | done, [] => some done
  | done, segment :: rest =>
    if segment = [] ∨ segment = ['.'] then climb done rest
    else if segment = ['.', '.'] then
      match done with
      | [] => none
      | _ :: above => climb above rest
    else if rest.isEmpty ∧ isUnitFile segment then some done
    else climb (segment :: done) rest

/-- The id that a relative path leads to from a module. -/
def follow (id : String) (relative : List Char) : Option String :=
  (climb (segments id).reverse (Text.splitOn (fun c => c == '/' || c == '\\') relative)).map
    fun names => ofSegments names.reverse

end ModuleId

/-- Whether the source of a module names a directory relative to the module. -/
def isLocalSource (source : String) : Bool :=
  let s := source.toList
  Text.hasStart ['.', '/'] s || Text.hasStart ['.', '.', '/'] s || source == "." || source == ".."

/-- The directory that is scanned. -/
structure ScanRoot where
  /-- Its path as given. -/
  path : Path
deriving DecidableEq, Repr

namespace ScanRoot

/-- The path of a file or directory from the scan root. One that lies elsewhere keeps its path. -/
def relativePath (root : ScanRoot) (p : Path) : String :=
  match p.below? root.path with
  | some components => Path.joinNames components
  | none => Text.escape (fun c => [if c = '\\' then '/' else c]) p.text

/-- The id of the module in a directory. -/
def moduleId (root : ScanRoot) (dir : Path) : String :=
  let relative := root.relativePath dir
  if relative.isEmpty then rootId else relative

/-- The id of the module that a file belongs to. -/
def moduleIdOfFile (root : ScanRoot) (file : Path) : String :=
  match file.parent? with
  | some dir => root.moduleId dir
  | none => rootId

/-- The directory of a module. -/
def moduleDir (root : ScanRoot) (id : String) : Path :=
  if id = rootId then root.path
  else (Text.splitOn (· == '/') id.toList).foldl (fun dir name => dir.child (String.ofList name))
    root.path

/-- The id that a path written in a file of module `id` leads to. -/
def resolve (root : ScanRoot) (id specifier : String) : Option String :=
  match Text.trim specifier.toList with
  | [] => none
  | '/' :: rest => do
    let components ← Path.below? ⟨String.ofList ('/' :: rest)⟩ root.path
    ModuleId.follow rootId (Path.joinNames components).toList
  | relative => ModuleId.follow id relative

end ScanRoot

end StackGraph
