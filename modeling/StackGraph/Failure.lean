import StackGraph.Diagnostic
import StackGraph.Glob
import StackGraph.Path
/-!
# Failures

Reasons for which a run ends without a result: settings that cannot be used, and output that cannot
be delivered. What goes wrong inside the scanned tree is a `Diagnostic` and ends nothing.

`Failure.text` is the wording for a log, `Failure.userText` the one that is shown, and
`Failure.hint?` a piece of advice where there is one.
-/

namespace StackGraph

/-- Why the system refused an operation on a file. -/
structure SystemError where
  /-- The wording of the system. -/
  text : String
  /-- Whether permission is missing. -/
  denied : Bool
deriving DecidableEq, Repr

/-- A reason to end without a result. -/
inductive Failure where
  /-- The system refused something. -/
  | system (cause : String)
  /-- A setting cannot be used. -/
  | setting (message : String)
  | permissionDenied (path : Path)
  /-- The scan root is not a directory. -/
  | invalidPath (path : Path)
  | invalidGlob (cause : GlobError)
  | settingsNotFound (path : Path)
  | settingsUnreadable (path : Path) (cause : String)
  /-- A file of settings is not valid TOML, or a setting has the wrong type. -/
  | settingsMalformed (path : Path) (cause : String)
  | unknownFormat (name : String)
  | fileNotWritten (path : Path) (cause : String)
  | outputNotWritten (cause : String)
  /-- A directory cannot be made or entered. -/
  | directory (path : Path) (cause : String)
  /-- A configuration file is not valid. -/
  | invalidSyntax (path : Path) (cause : String)
  /-- Anything else, with what was being done. -/
  | analysis (message : String)
  | unknownModule (id : String)
  /-- The work cannot be shared out. -/
  | parallel (message : String)
  /-- A report cannot be written as JSON. -/
  | json (cause : String)
  | outputDirectoryNotFound (path : Path)
deriving DecidableEq, Repr

namespace Failure

/-- How bad a failure is. -/
def severity : Failure → Severity
  | permissionDenied _ | invalidSyntax .. | unknownModule _ => .warning
  | system _ | directory .. | analysis _ | parallel _ | json _ => .error
  | setting _ | invalidPath _ | invalidGlob _ | settingsNotFound _ | settingsUnreadable ..
  | settingsMalformed .. | unknownFormat _ | fileNotWritten .. | outputNotWritten _
  | outputDirectoryNotFound _ => .critical

/-- The wording of a failure. -/
def text : Failure → String
  | system cause => "IO error: " ++ cause
  | setting message => "Configuration error: " ++ message
  | permissionDenied path => "Permission denied accessing " ++ path.text
  | invalidPath path => "Invalid path: " ++ path.text
  | invalidGlob cause => "Glob pattern error: " ++ cause.text
  | settingsNotFound path => "Configuration file not found at " ++ path.text
  | settingsUnreadable path cause =>
    "Error reading configuration file " ++ path.text ++ ": " ++ cause
  | settingsMalformed path cause =>
    "Error parsing configuration file " ++ path.text ++ ": " ++ cause
  | unknownFormat name => "Invalid output format: " ++ name
  | fileNotWritten path cause => "Error writing to output file " ++ path.text ++ ": " ++ cause
  | outputNotWritten cause => "Error writing to stdout: " ++ cause
  | directory path cause => "Directory traversal error for " ++ path.text ++ ": " ++ cause
  | invalidSyntax path cause => "Syntax error in " ++ path.text ++ ": " ++ cause
  | analysis message => "Analysis error: " ++ message
  | unknownModule id => "Unknown module: " ++ id
  | parallel message => "Parallel execution error: " ++ message
  | json cause => "JSON serialization error: " ++ cause
  | outputDirectoryNotFound path => "Output directory not found: " ++ path.text

/-- The wording that is shown to the user. -/
def userText : Failure → String
  | permissionDenied path => "Cannot access '" ++ path.text ++ "' due to permission denied."
  | system cause => "File system error: " ++ cause ++ ". Check disk space and permissions."
  | invalidPath path =>
    "Invalid path: '" ++ path.text ++ "'. Please provide a readable directory."
  | settingsNotFound path => "Configuration file not found at '" ++ path.text ++ "'."
  | invalidSyntax path cause => "Could not parse '" ++ path.text ++ "': " ++ cause
  | unknownModule id => "No module with id '" ++ id ++ "' exists in the scanned tree."
  | outputDirectoryNotFound path => "Output directory '" ++ path.text ++ "' does not exist."
  | failure => failure.text

/-- How to mend a failure, where that is obvious. -/
def hint? : Failure → Option String
  | invalidPath _ => some "Check that the path exists and is a directory"
  | settingsNotFound _ =>
    some "Create a .tfdeps.toml file with --init or pass an existing file with --config"
  | permissionDenied _ => some "Check file permissions"
  | outputDirectoryNotFound _ =>
    some "Create the output directory first or specify a different path"
  | unknownModule _ =>
    some "Module ids are directory paths relative to --path, e.g. network/vpc"
  | _ => none

/-- The failure of what was being done, with its cause. -/
def during (context cause : String) : Failure := analysis (context ++ ": " ++ cause)

/-- The failure of an operation on a directory. -/
def atDirectory (path : Path) (cause : SystemError) : Failure :=
  if cause.denied then permissionDenied path else directory path cause.text

end Failure

end StackGraph
