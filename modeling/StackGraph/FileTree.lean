import StackGraph.Path
/-!
# File trees

Files, symbolic links and directories as one value, and what a system answers about them. A file or
a directory that may not be opened can be seen where it lies, but not what is in it.

A path is resolved piece by piece from a directory: an empty piece or a point stays there, double
points go up from where the path has really led, and a link in the middle is replaced by its target.
What happens at the end depends on what the path is for (`Purpose`): a link there is replaced too,
unless the link itself is meant. More than forty links end the resolution, and so does a name that
is too long. A path thus leads to a place (`FileTree.Place`): a node, or a name that is still free
in a directory.
-/

namespace StackGraph

/-- A file, a link or a directory with everything in it. -/
inductive FileTree where
  /-- A file with its text; none if it is not valid UTF-8. -/
  | file (content : Option String)
  /-- A symbolic link. -/
  | link (target : Path)
  /-- A directory with the nodes in it, which have different names. -/
  | directory (writable : Bool) (entries : List (String × FileTree))
  /-- A file that may not be opened. -/
  | closedFile
  /-- A directory that may not be opened, nor gone through to what is in it. -/
  | closedDirectory (writable : Bool)

/-- Why an operation on files fails. -/
inductive FileError where
  | notFound
  | notDirectory
  | isDirectory
  | alreadyExists
  | tooManyLinks
  /-- A path or one of its names has too many bytes. -/
  | nameTooLong
  /-- A path holds the character zero. -/
  | zeroInName
  /-- The content of a file is not valid UTF-8. -/
  | notText
  /-- A file or a directory may not be opened. -/
  | permissionDenied
deriving DecidableEq, Repr

/-- The wording of an error. -/
def FileError.text : FileError → String
  | notFound => "No such file or directory (os error 2)"
  | notDirectory => "Not a directory (os error 20)"
  | isDirectory => "Is a directory (os error 21)"
  | alreadyExists => "File exists (os error 17)"
  | tooManyLinks => "Too many levels of symbolic links (os error 40)"
  | nameTooLong => "File name too long (os error 36)"
  | zeroInName => "file name contained an unexpected NUL byte"
  | notText => "stream did not contain valid UTF-8"
  | permissionDenied => "Permission denied (os error 13)"

/-- What is wrong with a path wherever it leads, if anything is. The empty path leads nowhere, and a
path has less than 4096 bytes. -/
def FileError.ofPath? (p : Path) : Option FileError :=
  if p.text.toList.contains '\x00' then some zeroInName
  else if p.text.isEmpty then some notFound
  else if 4096 ≤ p.text.utf8ByteSize then some nameTooLong
  else none

/-- What a path is looked up for. -/
inductive Purpose where
  /-- The node of that name, be it a link. -/
  | entry
  /-- What the path leads to behind all links. -/
  | target
  /-- A file that is written, and made if it is not there. No slash may follow its name, neither in
  the path nor in the link that leads to it. -/
  | writing
deriving DecidableEq, Repr

/-- A position in a tree: the names from its root. -/
abbrev Location := List String

namespace FileTree

instance : Inhabited FileTree := ⟨directory true []⟩

/-- Whether a node is a directory. -/
def isDirectory : FileTree → Bool
  | directory .. | closedDirectory _ => true
  | _ => false

/-- Whether a node is a file. -/
def isFile : FileTree → Bool
  | file _ | closedFile => true
  | _ => false

/-- The node of a name in a directory. -/
def child? (name : String) : FileTree → Option FileTree
  | directory _ entries => (entries.find? fun e => e.1 == name).map Prod.snd
  | _ => none

/-- The node at a location. -/
def get? : FileTree → Location → Option FileTree
  | t, [] => some t
  | t, name :: rest => (t.child? name).bind fun c => c.get? rest

/-- The entries with a node put in the place of a name. -/
def putEntry (name : String) (node : FileTree) :
    List (String × FileTree) → List (String × FileTree)
  | [] => [(name, node)]
  | e :: rest => if e.1 == name then (name, node) :: rest else e :: putEntry name node rest

/-- The tree with a node at a location. Directories on the way are made where nothing is; below a
file, a link or a directory that may not be opened nothing can be put. -/
def put : FileTree → Location → FileTree → FileTree
  | _, [], node => node
  | directory writable entries, name :: rest, node =>
    let old := ((directory writable entries).child? name).getD (directory true [])
    directory writable (putEntry name (put old rest node) entries)
  | t, _, _ => t

/-- Where a path leads to. -/
structure Place where
  location : Location
  /-- The node there, if there is one; otherwise the directory above exists. -/
  node : Option FileTree

/-- The number of links that a resolution follows at most. -/
def linkLimit : Nat := 40

/-- The number of bytes that a name has at most. -/
def nameLimit : Nat := 255

/-- Resolves the pieces of a path from a location, with `onLink` for what is left behind the target
of a link. -/
def resolveWith (t : FileTree) (purpose : Purpose)
    (onLink : Location → List String → Except FileError Place) (here : Location) :
    List String → Except FileError Place
  | [] => .ok ⟨here, t.get? here⟩
  | piece :: rest =>
    match t.get? here with
    | some (directory _ entries) =>
      if piece = "" ∨ piece = "." then resolveWith t purpose onLink here rest
      else if piece = ".." then resolveWith t purpose onLink here.dropLast rest
      else if purpose = .writing ∧ !rest.isEmpty ∧ rest.all String.isEmpty then .error .isDirectory
      else if nameLimit < piece.utf8ByteSize then .error .nameTooLong
      else
        match (entries.find? fun e => e.1 == piece).map Prod.snd with
        | none => if rest.isEmpty then .ok ⟨here ++ [piece], none⟩ else .error .notFound
        | some (link target) =>
          if rest.isEmpty ∧ purpose = .entry then .ok ⟨here ++ [piece], some (link target)⟩
          else
            onLink (if target.isAbsolute then [] else here)
              (target.pieces.map String.ofList ++ rest)
        | some _ => resolveWith t purpose onLink (here ++ [piece]) rest
    | some (closedDirectory _) =>
      if piece = "" then resolveWith t purpose onLink here rest else .error .permissionDenied
    | _ => .error .notDirectory

/-- Resolves the pieces of a path from a location, following at most the given number of links. -/
def resolveFrom (t : FileTree) (purpose : Purpose) :
    Nat → Location → List String → Except FileError Place
  | 0 => resolveWith t purpose fun _ _ => .error .tooManyLinks
  | links + 1 => resolveWith t purpose (resolveFrom t purpose links)

/-- Where an absolute path leads to. -/
def place (t : FileTree) (p : Path) (purpose : Purpose) : Except FileError Place :=
  t.resolveFrom purpose linkLimit [] (p.pieces.map String.ofList)

mutual

/-- The number of nodes of a tree. -/
def size : FileTree → Nat
  | directory _ entries => 1 + sizeOfEntries entries
  | _ => 1
termination_by structural t => t

/-- The number of nodes below a directory. -/
def sizeOfEntries : List (String × FileTree) → Nat
  | [] => 0
  | (_, t) :: rest => t.size + sizeOfEntries rest
termination_by structural entries => entries

end

end FileTree

end StackGraph
