import StackGraph.Reference
import StackGraph.Text.Basic
/-!
# Finding references in text

References are found in the text of expressions by their form alone. An occurrence stands at the
start of the text or after a character that cannot be part of a name or of a longer path, and its
names are as long as possible. The text is read from left to right, and the search goes on behind
an occurrence that was found.

There are four forms: outputs of nested modules, possibly with an index, outputs of dependencies,
outputs of remote states, and data sources; a remote state is a data source as well.
-/

namespace StackGraph

open Std

/-- What was found in some texts. -/
structure Findings where
  /-- References through modules and dependencies. -/
  references : ReferenceSet
  /-- Type and name of each data source. -/
  dataSources : NameSet
  /-- Names of remote states. -/
  remoteStates : NameSet

namespace Findings

/-- Characters of a name. -/
def isNameChar (c : Char) : Bool := c.isAlphanum || c == '_' || c == '-'

/-- Whether an occurrence may start behind the character. -/
def isBoundary (c : Char) : Bool := !(isNameChar c || c == '.')

/-- What is left of a text behind a fixed start. -/
def literal? : List Char → List Char → Option (List Char)
  | [], rest => some rest
  | _ :: _, [] => none
  | a :: as, b :: bs => if a = b then literal? as bs else none

/-- The longest name at the start of a text, and what is left. -/
def name? (s : List Char) : Option (String × List Char) :=
  match s.takeWhile isNameChar with
  | [] => none
  | name => some (String.ofList name, s.dropWhile isNameChar)

/-- What is left behind an index in brackets, or the text itself if it has none. -/
def skipIndex (s : List Char) : List Char :=
  match s with
  | '[' :: rest =>
    match rest.dropWhile (· != ']') with
    | ']' :: after => after
    | _ => s
  | _ => s

/-- A reference to an output of a nested module at the start of a text, and what is left. -/
def moduleForm (s : List Char) : Option (Reference × List Char) := do
  let rest ← literal? "module.".toList s
  let (name, rest) ← name? rest
  let rest ← literal? ['.'] (skipIndex rest)
  let (output, rest) ← name? rest
  return (.ofModule name output, rest)

/-- A reference to an output of a dependency at the start of a text, and what is left. -/
def dependencyForm (s : List Char) : Option (Reference × List Char) := do
  let rest ← literal? "dependency.".toList s
  let (name, rest) ← name? rest
  let rest ← literal? ".outputs.".toList rest
  let (output, rest) ← name? rest
  return (.ofDependency name output, rest)

/-- The name of a remote state whose output is mentioned at the start of a text, and what is
left. -/
def remoteStateForm (s : List Char) : Option (String × List Char) := do
  let rest ← literal? "data.terraform_remote_state.".toList s
  let (name, rest) ← name? rest
  let rest ← literal? ".outputs.".toList rest
  let (_, rest) ← name? rest
  return (name, rest)

/-- Type and name of a data source at the start of a text, and what is left. -/
def dataForm (s : List Char) : Option (String × List Char) := do
  let rest ← literal? "data.".toList s
  let (type, rest) ← name? rest
  let rest ← literal? ['.'] rest
  let (name, rest) ← name? rest
  return (type ++ "." ++ name, rest)

variable {α : Type}

/-- The occurrences of a form behind each boundary of a text, after `skip` characters. -/
def occurrencesAfter (form : List Char → Option (α × List Char)) : Nat → List Char → List α
  | _, [] => []
  | skip + 1, _ :: rest => occurrencesAfter form skip rest
  | 0, c :: rest =>
    match if isBoundary c then form rest else none with
    | some (found, after) =>
      found :: occurrencesAfter form (rest.length - after.length) rest
    | none => occurrencesAfter form 0 rest

/-- The occurrences of a form in a text. -/
def occurrences (form : List Char → Option (α × List Char)) (s : List Char) : List α :=
  match form s with
  | some (found, after) => found :: occurrencesAfter form (s.length - after.length) s
  | none => occurrencesAfter form 0 s

/-- Everything found in some texts. -/
def scan (texts : List String) : Findings where
  references := ExtTreeSet.ofList (texts.flatMap fun t =>
    occurrences moduleForm t.toList ++ occurrences dependencyForm t.toList) _
  dataSources := ExtTreeSet.ofList (texts.flatMap fun t => occurrences dataForm t.toList) _
  remoteStates := ExtTreeSet.ofList (texts.flatMap fun t => occurrences remoteStateForm t.toList) _

end Findings

end StackGraph
