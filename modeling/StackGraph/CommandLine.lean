import StackGraph.Settings
import StackGraph.Text.Number
/-!
# The command line

The arguments of the program. A flag has a name, which follows two hyphens, and may have a letter,
which follows one; letters of several flags can be written together. A parameter is a flag with a
value: the next argument, or what stands right behind it, after an equals sign or after its letter.
A switch has none. Every flag but `exclude` is given at most once.

Arguments are read from left to right and the first fault ends the reading. The value of a parameter
that is an argument of its own is looked at only when the next flag has been recognised, so an
unknown flag right behind a bad value is the fault that is reported.
-/

namespace StackGraph

/-- The flags with a value. -/
inductive Parameter where
  | path
  | format
  | output
  | config
  | exclude
  | maxDepth
  | impact
deriving DecidableEq, Repr

/-- The flags without a value. -/
inductive Switch where
  | followLinks
  | noParallel
  | quiet
  | verbose
  | noColors
  | noProgress
  | noTimestamp
  | init
  | help
  | version
deriving DecidableEq, Repr

/-- The flags. -/
inductive Flag where
  | parameter (p : Parameter)
  | switch (s : Switch)
deriving DecidableEq, Repr

namespace Flag

/-- The names of the flags, and their letters. -/
def table : List (Flag × String × Option Char) :=
  [(parameter .path, "path", some 'p'), (parameter .format, "format", some 'f'),
    (parameter .output, "output", some 'o'), (parameter .config, "config", some 'c'),
    (parameter .exclude, "exclude", some 'e'), (parameter .maxDepth, "max-depth", none),
    (switch .followLinks, "follow-links", none), (switch .noParallel, "no-parallel", none),
    (switch .quiet, "quiet", some 'q'), (switch .verbose, "verbose", some 'v'),
    (switch .noColors, "no-colors", none), (switch .noProgress, "no-progress", none),
    (switch .noTimestamp, "no-timestamp", none), (parameter .impact, "impact", none),
    (switch .init, "init", none), (switch .help, "help", some 'h'),
    (switch .version, "version", some 'V')]

/-- The flag of a name. -/
def ofName? (name : String) : Option Flag :=
  (table.find? fun row => row.2.1 == name).map Prod.fst

/-- The flag of a letter. -/
def ofLetter? (letter : Char) : Option Flag :=
  (table.find? fun row => row.2.2 == some letter).map Prod.fst

end Flag

/-- Why reading the arguments ends early. -/
inductive UsageStop where
  /-- An unknown flag, or an argument that belongs to no flag. -/
  | unknownArgument
  /-- A missing value, an empty path or an unknown format. -/
  | invalidValue
  /-- A value that is no number. -/
  | invalidNumber
  /-- A flag is given twice, or two that exclude each other are. -/
  | conflict
  /-- A switch with a value. -/
  | surplusValue
  /-- The help text is asked for. -/
  | help
  /-- The version is asked for. -/
  | version
deriving DecidableEq, Repr

/-- Whether the program ends well. -/
def UsageStop.isRequest : UsageStop → Bool
  | help | version => true
  | _ => false

/-- The arguments of the program. -/
structure Arguments where
  path : Option Path
  excludes : Option (List String)
  maxDepth : Option Nat
  format : Option OutputFormat
  outputFile : Option Path
  noParallel : Bool
  quiet : Bool
  verbose : Bool
  followLinks : Bool
  noColors : Bool
  noProgress : Bool
  noTimestamp : Bool
  /-- The file of settings. -/
  config : Option Path
  /-- The module whose reach is asked for. -/
  impact : Option String
  /-- Whether a file of settings is to be made. -/
  init : Bool
deriving DecidableEq, Repr

namespace Arguments

/-- No arguments. -/
def empty : Arguments :=
  ⟨none, none, none, none, none, false, false, false, false, false, false, false, none, none, false⟩

/-- A path as the value of a parameter; it must not be empty. -/
def path? (value : String) : Except UsageStop Path :=
  if value.isEmpty then .error .invalidValue else .ok ⟨value⟩

/-- The arguments with a parameter. -/
def assign (a : Arguments) (p : Parameter) (value : String) : Except UsageStop Arguments :=
  match p with
  | .path => (path? value).map fun path => { a with path := some path }
  | .format =>
    match OutputFormat.ofName? value with
    | some format => .ok { a with format := some format }
    | none => .error .invalidValue
  | .output => (path? value).map fun path => { a with outputFile := some path }
  | .config => (path? value).map fun path => { a with config := some path }
  | .exclude => .ok { a with excludes := some (a.excludes.getD [] ++ [value]) }
  | .maxDepth =>
    match Text.word? value.toList with
    | some depth => .ok { a with maxDepth := some depth }
    | none => .error .invalidNumber
  | .impact => .ok { a with impact := some value }

/-- The arguments with a switch. -/
def turnOn (a : Arguments) : Switch → Except UsageStop Arguments
  | .followLinks => .ok { a with followLinks := true }
  | .noParallel => .ok { a with noParallel := true }
  | .quiet => .ok { a with quiet := true }
  | .verbose => .ok { a with verbose := true }
  | .noColors => .ok { a with noColors := true }
  | .noProgress => .ok { a with noProgress := true }
  | .noTimestamp => .ok { a with noTimestamp := true }
  | .init => .ok { a with init := true }
  | .help => .error .help
  | .version => .error .version

/-- The layer of settings that the arguments give: a switch that is absent says nothing. -/
def layer (a : Arguments) : Layer :=
  { Layer.empty with
    scanPath := a.path
    excludes := a.excludes
    maxDepth := a.maxDepth
    format := a.format
    outputFile := a.outputFile
    parallel := if a.noParallel then some false else none
    quiet := if a.quiet then some true else none
    verbose := if a.verbose then some true else none
    followLinks := if a.followLinks then some true else none
    colors := if a.noColors then some false else none
    progress := if a.noProgress then some false else none
    timestamp := if a.noTimestamp then some false else none }

end Arguments

/-- The state between two arguments. -/
structure ArgumentReader where
  arguments : Arguments
  /-- The flags that have been taken. -/
  taken : List Flag
  /-- A parameter that has been recognised but not taken, with its value once it is there. -/
  pending : Option (Parameter × Option String)

namespace ArgumentReader

/-- The state before the first argument. -/
def start : ArgumentReader := ⟨.empty, [], none⟩

/-- Takes a flag, which can be repeated only if it is `exclude`. -/
def take (r : ArgumentReader) (flag : Flag) (arguments : Except UsageStop Arguments) :
    Except UsageStop ArgumentReader :=
  if flag ∈ r.taken ∧ flag ≠ .parameter .exclude then .error .conflict
  else arguments.map fun arguments => { r with arguments, taken := flag :: r.taken }

/-- Takes a parameter with its value, which must be there. -/
def takeParameter (r : ArgumentReader) (p : Parameter) (value : Option String) :
    Except UsageStop ArgumentReader :=
  match value with
  | none => .error .invalidValue
  | some value => r.take (.parameter p) (r.arguments.assign p value)

/-- Takes the pending parameter. -/
def settle (r : ArgumentReader) : Except UsageStop ArgumentReader :=
  match r.pending with
  | none => .ok r
  | some (p, value) => ({ r with pending := none }).takeParameter p value

/-- Goes on with a flag that has been recognised, and with what is attached to it. -/
def flag (r : ArgumentReader) (attached : Option String) : Flag → Except UsageStop ArgumentReader
  | .parameter p => do
    let r ← r.settle
    match attached with
    | some value => r.takeParameter p (some value)
    | none => .ok { r with pending := some (p, none) }
  | .switch s =>
    if attached.isSome then .error .surplusValue
    else do
      let r ← r.settle
      r.take (.switch s) (r.arguments.turnOn s)

/-- Reads the letters behind a hyphen. What stands behind the letter of a parameter is its value. -/
def letters (r : ArgumentReader) : List Char → Except UsageStop ArgumentReader
  | [] => .ok r
  | c :: rest =>
    match Flag.ofLetter? c with
    | none => .error .unknownArgument
    | some (.switch s) => do letters (← r.flag none (.switch s)) rest
    | some (.parameter p) =>
      let attached := match rest with
        | [] => none
        | '=' :: value => some (String.ofList value)
        | value => some (String.ofList value)
      r.flag attached (.parameter p)

/-- Reads the name behind two hyphens, with an equals sign and a value or without. -/
def named (r : ArgumentReader) (text : List Char) : Except UsageStop ArgumentReader :=
  let attached := match text.dropWhile (· != '=') with
    | [] => none
    | _ :: value => some (String.ofList value)
  match Flag.ofName? (String.ofList (text.takeWhile (· != '='))) with
  | none => .error .unknownArgument
  | some flag => r.flag attached flag

/-- Reads an argument that is no flag: the value of the pending parameter. -/
def plain (r : ArgumentReader) (text : String) : Except UsageStop ArgumentReader :=
  match r.pending with
  | some (p, none) => .ok { r with pending := some (p, some text) }
  | _ => .error .unknownArgument

/-- Reads one argument. -/
def argument (r : ArgumentReader) (text : String) : Except UsageStop ArgumentReader :=
  match text.toList with
  | '-' :: '-' :: name => r.named name
  | '-' :: c :: rest => r.letters (c :: rest)
  | _ => r.plain text

/-- The arguments at the end, where two flags that exclude each other are noticed. -/
def finish (r : ArgumentReader) : Except UsageStop Arguments := do
  let r ← r.settle
  if r.arguments.quiet ∧ r.arguments.verbose then .error .conflict else .ok r.arguments

/-- Reads several arguments. Nothing may follow two hyphens that stand alone. -/
def readAll (r : ArgumentReader) : List String → Except UsageStop Arguments
  | [] => r.finish
  | text :: rest =>
    if text = "--" then if rest.isEmpty then r.finish else .error .unknownArgument
    else do (← r.argument text).readAll rest

end ArgumentReader

/-- The arguments that a command line gives. -/
def Arguments.read (texts : List String) : Except UsageStop Arguments :=
  ArgumentReader.start.readAll texts

end StackGraph
