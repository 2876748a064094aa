import StackGraph.Ordered
/-!
# Diagnostics

Problems in the scanned files. A problem degrades the result and is reported with it; it never ends
the analysis.

A `Diagnostic` is what the report shows, whatever its cause. The causes that are found between
parsing and building are types of their own, each with its wording.
-/

namespace StackGraph

open Std

/-- How bad a problem is. -/
inductive Severity where
  /-- The result may be incomplete. -/
  | warning
  /-- A file or reference is skipped. -/
  | error
  /-- The program should end. -/
  | critical
deriving DecidableEq, Repr

namespace Severity

/-- The place of a severity in the order. -/
def rank : Severity → Nat
  | warning => 0
  | error => 1
  | critical => 2

/-- The name of a severity in a report. -/
def text : Severity → String
  | warning => "warning"
  | error => "error"
  | critical => "critical"

/-- The name of a severity in capital letters. -/
def label : Severity → String
  | warning => "WARNING"
  | error => "ERROR"
  | critical => "CRITICAL"

end Severity

/-- What a problem is about. -/
inductive DiagnosticKind where
  | filesystem
  | syntaxError
  | grammar
  | resolution
  | selfReference
deriving DecidableEq, Repr

namespace DiagnosticKind

/-- The place of a kind in the order. -/
def rank : DiagnosticKind → Nat
  | filesystem => 0
  | syntaxError => 1
  | grammar => 2
  | resolution => 3
  | selfReference => 4

/-- The name of a kind. -/
def text : DiagnosticKind → String
  | filesystem => "filesystem"
  | syntaxError => "syntax"
  | grammar => "grammar"
  | resolution => "resolution"
  | selfReference => "self-reference"

end DiagnosticKind

/-- A problem as it is reported. -/
structure Diagnostic where
  kind : DiagnosticKind
  severity : Severity
  /-- The file or directory it was found in, from the scan root. -/
  path : Option String
  /-- The module it was found in. -/
  module : Option String
  message : String
deriving DecidableEq, Repr

namespace Diagnostic

/-- A file or directory could not be read. -/
def filesystem (path message : String) : Diagnostic :=
  ⟨.filesystem, .warning, some path, none, message⟩

/-- A file is not valid configuration text. -/
def syntaxError (path message : String) : Diagnostic :=
  ⟨.syntaxError, .error, some path, none, message⟩

/-- A block violates the vocabulary of its file. -/
def grammar (path message : String) : Diagnostic :=
  ⟨.grammar, .warning, some path, none, message⟩

/-- A dependency or reference of a module means no module. -/
def resolution (module message : String) : Diagnostic :=
  ⟨.resolution, .warning, none, some module, message⟩

/-- A module depends on itself. -/
def selfReference (module message : String) : Diagnostic :=
  ⟨.selfReference, .warning, none, some module, message⟩

/-- The diagnostic with the file it was found in. -/
def withPath (d : Diagnostic) (path : String) : Diagnostic := { d with path := some path }

/-- The diagnostic with the module it was found in. -/
def withModule (d : Diagnostic) (module : String) : Diagnostic := { d with module := some module }

/-- Diagnostics in the order of file, module, kind, message and severity; what has no file comes
first. -/
def compare (a b : Diagnostic) : Ordering :=
  ((((compareOption Ord.compare a.path b.path).then
    (compareOption Ord.compare a.module b.module)).then
      (Ord.compare a.kind.rank b.kind.rank)).then
        (Ord.compare a.message b.message)).then
          (Ord.compare a.severity.rank b.severity.rank)

/-- A list without neighbours that are equal. -/
def dedup : List Diagnostic → List Diagnostic
  | [] => []
  | [d] => [d]
  | d :: e :: rest => if d = e then dedup (e :: rest) else d :: dedup (e :: rest)

/-- Diagnostics in order, each once. -/
def arrange (ds : List Diagnostic) : List Diagnostic := dedup (sortBy compare ds)

/-- The diagnostic on one line. -/
def text (d : Diagnostic) : String :=
  "[" ++ d.kind.text ++ "] " ++ d.message ++
    match d.path, d.module with
    | some path, _ => " (" ++ path ++ ")"
    | none, some module => " (module " ++ module ++ ")"
    | none, none => ""

end Diagnostic

end StackGraph
