import StackGraph.Ordered
import StackGraph.Text.Basic
/-!
# Paths

File paths as they are written, and the components that they consist of. Repeated separators and
inner points mean nothing; a leading point and double points are components of their own, so `./a`
and `a` are different paths and `a/../b` is not `b`. No operation looks at a file system.

Paths are compared by their components: first the root, then a leading point, then double points,
then names.
-/

namespace StackGraph

/-- A path as it is written. -/
structure Path where
  /-- The text of the path. -/
  text : String
deriving DecidableEq, Repr, Inhabited

/-- A component of a path. -/
inductive Component where
  /-- The slash at the start of an absolute path. -/
  | root
  /-- A point at the start of a relative path. -/
  | here
  /-- Two points. -/
  | up
  /-- A name. -/
  | name (text : String)
deriving DecidableEq, Repr

namespace Component

/-- The place of a kind of component in the order. -/
def rank : Component → Nat
  | root => 0
  | here => 1
  | up => 2
  | name _ => 3

/-- Names in their own order and after all other components. -/
def compare : Component → Component → Ordering
  | name a, name b => Ord.compare a b
  | a, b => Ord.compare a.rank b.rank

/-- The name, if the component is one. -/
def name? : Component → Option String
  | name text => some text
  | _ => none

end Component

namespace Path

/-- Whether the path starts at the root. -/
def isAbsolute (p : Path) : Bool := p.text.toList.head? == some '/'

/-- The pieces between the separators. -/
def pieces (p : Path) : List (List Char) := Text.splitOn (· == '/') p.text.toList

/-- The component that a piece stands for, unless it is empty or a point. -/
def component? (piece : List Char) : Option Component :=
  if piece = [] ∨ piece = ['.'] then none
  else if piece = ['.', '.'] then some .up
  else some (.name (String.ofList piece))

/-- The components of a path. -/
def components (p : Path) : List Component :=
  let body := p.pieces.filterMap component?
  if p.isAbsolute then .root :: body
  else if p.pieces.head? == some ['.'] then .here :: body
  else body

/-- Paths in the order of their components. -/
def compare (p q : Path) : Ordering :=
  compareList Component.compare p.components q.components

/-- The path `q` seen from `p`: an absolute path stands for itself. -/
def join (p q : Path) : Path :=
  if q.isAbsolute ∨ p.text.isEmpty then q
  else if p.text.toList.getLast? == some '/' then ⟨p.text ++ q.text⟩
  else ⟨p.text ++ "/" ++ q.text⟩

/-- The path with a name below it. -/
def child (p : Path) (name : String) : Path := p.join ⟨name⟩

/-- Pieces that stand for nothing at the end of a path. -/
def dropVoid (pieces : List (List Char)) : List (List Char) :=
  match pieces with
  | [] => []
  | first :: rest =>
    first :: (rest.reverse.dropWhile fun piece => piece = [] ∨ piece = ['.']).reverse

/-- The path without its last component; the root and the empty path have no parent. -/
def parent? (p : Path) : Option Path :=
  match p.components.reverse with
  | [] => none
  | .root :: _ => none
  | _ =>
    match dropVoid p.pieces with
    | [] | [_] => some ⟨""⟩
    | kept =>
      match dropVoid kept.dropLast with
      | [[]] => some ⟨"/"⟩
      | rest => some ⟨String.ofList (Text.intercalate ['/'] rest)⟩

/-- The last component, if it is a name. -/
def fileName? (p : Path) : Option String := p.components.getLast?.bind Component.name?

/-- The parts of a file name before and after its last point. -/
def splitExtension (name : String) : Option (String × String) :=
  let reversed := name.toList.reverse
  match reversed.dropWhile (· != '.') with
  | [] => none
  | _ :: stem =>
    if stem.isEmpty then none
    else some (String.ofList stem.reverse, String.ofList (reversed.takeWhile (· != '.')).reverse)

/-- What follows the last point of the file name, unless the name starts with that point. -/
def extension? (p : Path) : Option String := (p.fileName?.bind splitExtension).map Prod.snd

/-- The components after those of a base that the path starts with. -/
def below? (p base : Path) : Option (List Component) :=
  go base.components p.components
where
  /-- Removes the first list from the start of the second. -/
  go : List Component → List Component → Option (List Component)
    | [], rest => some rest
    | _ :: _, [] => none
    | a :: as, b :: bs => if a = b then go as bs else none

/-- The names among some components, separated by slashes. -/
def joinNames (components : List Component) : String :=
  "/".intercalate (components.filterMap Component.name?)

end Path

end StackGraph
