/-!
# Progress

What is announced while files are read: one message after each of them, with the number of those
that are done.
-/

namespace StackGraph

/-- An announcement. -/
structure Progress where
  /-- How many are done. -/
  current : Nat
  total : Nat
deriving DecidableEq, Repr

namespace Progress

/-- The wording of an announcement. -/
def text (p : Progress) : String := "Parsed " ++ toString p.current ++ "/" ++ toString p.total

/-- The announcements while a number of files is read. -/
def updates (total : Nat) : List Progress := (List.range total).map fun i => ⟨i + 1, total⟩

end Progress

end StackGraph
