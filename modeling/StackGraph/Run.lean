import StackGraph.Analysis
import StackGraph.Delivery
import StackGraph.Export
import StackGraph.Export.Summary
import StackGraph.Settings.Load
/-!
# Runs of the program

What a run with some arguments does: it prints the report or writes it to a file, and shows a
summary and failures as messages. A run asked for the reach of one module gives that instead of the
report; a run asked for a new file of settings makes one, unless it is there already.
-/

namespace StackGraph

/-- The name of the program and its version. -/
def programVersion : String := "tfdeps 0.1.0"

/-- What a run leaves behind. -/
structure Outcome where
  /-- Whether the run ended well. -/
  succeeded : Bool
  /-- What is printed. -/
  output : String
  /-- What is shown beside the output. -/
  messages : String
  workspace : Workspace

/-- The line of the help text for a flag. -/
def flagLine (row : Flag × String × Option Char) : String :=
  (match row.2.2 with
  | some letter => "  -" ++ String.singleton letter ++ ", --"
  | none => "      --") ++ row.2.1

/-- The help text. -/
def helpText : String :=
  String.join ((["Build the dependency graph of a Terragrunt/Terraform tree and find circular " ++
      "dependencies", "", "Usage: tfdeps [OPTIONS]", "", "Options:"] ++
    Flag.table.map flagLine).map (· ++ "\n"))

/-- What is shown when the arguments cannot be used. -/
def UsageStop.text : UsageStop → String
  | unknownArgument => "error: unexpected argument found\n"
  | invalidValue => "error: a value is missing or invalid\n"
  | invalidNumber => "error: a value is not a number\n"
  | conflict => "error: an argument cannot be used twice or with another one\n"
  | surplusValue => "error: a value was given where none is expected\n"
  | help => helpText
  | version => programVersion ++ "\n"

/-- The lines that are shown for a failure. -/
def Failure.messages (f : Failure) : String :=
  "Error: " ++ f.userText ++ "\n" ++
    match f.hint? with
    | some hint => "Suggestion: " ++ hint ++ "\n"
    | none => ""

namespace Outcome

/-- The outcome of a run that only shows messages. -/
def shown (w : Workspace) (messages : String) : Outcome := ⟨true, "", messages, w⟩

/-- The outcome with a failure at its end. -/
def fail (o : Outcome) (f : Failure) : Outcome :=
  { o with succeeded := false, messages := o.messages ++ f.messages }

end Outcome

namespace Workspace

/-- A run that makes a file of settings. -/
def runInit (w : Workspace) : Outcome :=
  if w.hasAnything ⟨settingsFile⟩ then
    .shown w ("Configuration file already exists at: " ++ settingsFile ++ "\n" ++
      "To overwrite it, delete the file first and run this command again.\n")
  else
    match w.writeInitialSettings ⟨settingsFile⟩ with
    | .error f => (Outcome.shown w "").fail f
    | .ok w =>
      .shown w ("Created default configuration file at: " ++ settingsFile ++ "\n" ++
        "Edit it to change the scan root, exclude patterns, output format or file names.\n")

/-- The text that a run is to deliver: the reach of one module, or the report. -/
def requestedText (r : Report) (s : Settings) (impact : Option String) : Except Failure String :=
  match impact with
  | some id => (r.reachOf id).map fun reach => Summary.renderReach id reach false
  | none => .ok (r.render s.format)

/-- Delivers a text: writes it to the file that the settings name, or else prints it. -/
def deliver (w : Workspace) (s : Settings) (messages text : String) : Outcome :=
  match s.outputFile with
  | none => ⟨true, text, messages, w⟩
  | some file =>
    match w.writeReport file text with
    | .ok w => .shown w messages
    | .error f => (Outcome.shown w messages).fail f

/-- A run that analyses a tree at a point in time. -/
def runAnalysis (w : Workspace) (arguments : Arguments) (now : Timestamp) : Outcome :=
  let report := do
    let s ← w.loadSettings arguments variableStem
    return (s, ← w.analyze s (if s.timestamp then some now else none))
  match report with
  | .error f => (Outcome.shown w "").fail f
  | .ok (s, r) =>
    let messages := if s.quiet then "" else Summary.render r s.colors s.verbose
    match requestedText r s arguments.impact with
    | .error f => (Outcome.shown w messages).fail f
    | .ok text => w.deliver s messages text

/-- A run with the texts of its arguments. -/
def run (w : Workspace) (texts : List String) (now : Timestamp) : Outcome :=
  match Arguments.read texts with
  | .error stop =>
    if stop.isRequest then ⟨true, stop.text, "", w⟩ else ⟨false, "", stop.text, w⟩
  | .ok arguments => if arguments.init then w.runInit else w.runAnalysis arguments now

end Workspace

end StackGraph
