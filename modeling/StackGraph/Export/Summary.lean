import StackGraph.Report
/-!
# Summary

A report for the terminal: its totals, cycles with suggestions, modules of high impact and
diagnostics. Unless everything is asked for, a cycle shows its first suggestion only, and at most
ten diagnostics are listed.
-/

namespace StackGraph.Summary

/-- The styles of text on a terminal. -/
inductive Style where
  | bold
  | boldRed
  | red
  | green
  | yellow
  | cyan

/-- The parameters of a style's control sequence. -/
def Style.code : Style → String
  | bold => "1"
  | boldRed => "1;31"
  | red => "31"
  | green => "32"
  | yellow => "33"
  | cyan => "36"

/-- A text in a style, if colours are wanted. -/
def paint (colors : Bool) (style : Style) (text : String) : String :=
  if colors then "\x1b[" ++ style.code ++ "m" ++ text ++ "\x1b[0m" else text

/-- The number of diagnostics that are listed unless all are asked for. -/
def diagnosticPreview : Nat := 10

/-- The totals. -/
def totals (r : Report) (colors : Bool) : List String :=
  [paint colors .bold "Dependency Analysis Summary", "---------------------------",
    "Scan root: " ++ r.scanRoot.text, "Modules: " ++ toString r.totalModules,
    "Dependencies: " ++ toString r.totalDependencies ++ " (" ++ toString r.inferredEdgeCount ++
      " inferred)",
    paint colors (if r.hasCycles then .boldRed else .green)
      ("Cycles: " ++ toString r.totalCycles)]

/-- A cycle with its suggestions. -/
def cycleLines (colors verbose : Bool) (a : CycleAdvice) : List String :=
  ("  " ++ paint colors .red "cycle:" ++ " " ++ a.cycle.text) ::
    (if verbose then a.suggestions else a.suggestions.take 1).map fun s => "    - " ++ s.message

/-- The modules of high impact; nothing if there are none. -/
def impactLines (colors : Bool) (high : List HighImpact) : List String :=
  if high.isEmpty then []
  else
    paint colors .cyan "High impact modules:" ::
      high.map fun h => "  " ++ h.module ++ " affects " ++ toString h.count ++ " modules"

/-- The counts of diagnostics. -/
def diagnosticTotals (r : Report) (colors : Bool) : String :=
  let errors := r.errorCount
  let warnings := r.diagnostics.length - errors
  let line := "Diagnostics: " ++ toString errors ++ " errors, " ++ toString warnings ++ " warnings"
  if 0 < errors then paint colors .red line
  else if 0 < warnings then paint colors .yellow line
  else line

/-- The diagnostics, and how many are left out. -/
def diagnosticLines (ds : List Diagnostic) (colors verbose : Bool) : List String :=
  let limit := if verbose then ds.length else diagnosticPreview
  (ds.take limit).map (fun d =>
      "  " ++ paint colors (if d.severity = .warning then .yellow else .red) d.text) ++
    (if limit < ds.length then
      ["  ... and " ++ toString (ds.length - limit) ++ " more (use --verbose to list all)"]
    else [])

/-- The lines of the summary. -/
def lines (r : Report) (colors verbose : Bool) : List String :=
  totals r colors ++ r.advice.flatMap (cycleLines colors verbose) ++
    impactLines colors r.impact.high ++ [diagnosticTotals r colors] ++
    diagnosticLines r.diagnostics colors verbose

/-- The text of the summary. -/
def render (r : Report) (colors verbose : Bool) : String :=
  String.join ((lines r colors verbose).map (· ++ "\n"))

/-- The text of the reach of one module. -/
def renderReach (id : String) (reach : Reach) (colors : Bool) : String :=
  String.join (((paint colors .bold id ++ " affects " ++ toString reach.count ++ " module(s)") ::
    reach.affected.map ("  " ++ ·)).map (· ++ "\n"))

end StackGraph.Summary
