import StackGraph.CommandLine
import StackGraph.Settings.Environment
import StackGraph.Settings.File
import StackGraph.Workspace
/-!
# Loading settings

Where settings come from and which of them count: the command line hides the environment, the
environment hides the file, and the defaults stand for what is missing. The file is the one that the
command line names, or else the first that exists among the usual places: the current directory, the
home directory and the directory for configuration.

Merged settings are checked against the workspace (`Settings.check`) before anything is done with
them.
-/

namespace StackGraph

/-- The name of a file of settings. -/
def settingsFile : String := ".tfdeps.toml"

/-- The first part of the names of environment variables. -/
def variableStem : String := "TFDEPS"

/-- A source of settings. -/
inductive Source where
  | file (path : Path)
  /-- The variables whose names start with a text. -/
  | environment (stem : String)
  | commandLine (arguments : Arguments)

/-- The layer in a file of settings, which must exist. -/
def Layer.readFile (w : Workspace) (path : Path) : Except Failure Layer :=
  if !w.hasAnything path then .error (.settingsNotFound path)
  else
    match w.readText path with
    | .ok text => ofText path text
    | .error e => .error (.settingsUnreadable path e.text)

namespace Source

/-- The name of a source. -/
def name : Source → String
  | file path => "config file (" ++ path.text ++ ")"
  | environment stem => stem ++ " environment variables"
  | commandLine _ => "command-line arguments"

/-- The rank of a source. -/
def priority : Source → Nat
  | environment _ => 10
  | file _ => 20
  | commandLine _ => 30

/-- Whether a source has anything to say. -/
def isAvailable (w : Workspace) : Source → Bool
  | file path => w.isFile path
  | environment stem => Environment.isGiven ⟨w.environment, stem⟩
  | commandLine _ => true

/-- The layer that a source gives. -/
def layer (w : Workspace) : Source → Except Failure Layer
  | file path => if w.isFile path then Layer.readFile w path else .error (.settingsNotFound path)
  | environment stem => Environment.layer ⟨w.environment, stem⟩
  | commandLine arguments => .ok arguments.layer

end Source

namespace Layer

/-- A layer with that of a source on top, if the source has anything to say. -/
def add (w : Workspace) (l : Layer) (source : Source) : Except Failure Layer :=
  if source.isAvailable w then (source.layer w).map (·.onto l) else .ok l

/-- A layer with that of a source on top, unless the source says nothing or fails. -/
def tryAdd (w : Workspace) (l : Layer) (source : Source) : Layer :=
  match l.add w source with
  | .ok added => added
  | .error _ => l

end Layer

namespace Workspace

/-- The home directory. -/
def home? (w : Workspace) : Option Path :=
  (w.environment["HOME"]?.filter (!·.isEmpty)).map Path.mk

/-- The directory for configuration. -/
def configDirectory? (w : Workspace) : Option Path :=
  let given : Option Path :=
    (w.environment["XDG_CONFIG_HOME"]?.map Path.mk).filter Path.isAbsolute
  given <|> w.home?.map fun home => home.child ".config"

/-- The usual places of a file of settings, starting with a directory. -/
def settingsFiles (w : Workspace) (directory : Path) : List Path :=
  [directory.child settingsFile] ++ (w.home?.map fun home => home.child settingsFile).toList ++
    (w.configDirectory?.map fun dir => (dir.child "tfdeps").child "config.toml").toList

/-- The layer in the first of the usual places that holds a file. -/
def usualLayer? (w : Workspace) (directory : Path) : Except Failure (Option Layer) :=
  match (w.settingsFiles directory).find? w.isFile with
  | none => .ok none
  | some path => (Layer.readFile w path).map some

/-- The layer of a file that must exist, or else of the usual places. -/
def fileLayer (w : Workspace) (config : Option Path) : Except Failure Layer :=
  match config with
  | some path => (Source.file path).layer w
  | none => (w.usualLayer? w.directory).map (·.getD .empty)

/-- The layers of all sources on top of each other. -/
def layers (w : Workspace) (arguments : Arguments) (stem : String) : Except Failure Layer := do
  let file ← w.fileLayer arguments.config
  let merged ← file.add w (.environment stem)
  merged.add w (.commandLine arguments)

end Workspace

namespace Settings

/-- Checks that the directory for the output exists and can be written to. A name alone means the
current directory. -/
def checkOutput (w : Workspace) (file : Path) : Except Failure Unit :=
  match file.parent? with
  | none => .ok ()
  | some parent =>
    if parent.text.isEmpty then .ok ()
    else if !w.isDirectory parent then .error (.outputDirectoryNotFound parent)
    else if w.isReadOnly parent then .error (.permissionDenied parent)
    else .ok ()

/-- Checks a pattern. -/
def checkExclude (text : String) : Except Failure Unit :=
  match Glob.read text with
  | .ok _ => .ok ()
  | .error e => .error (.during ("Invalid exclude pattern: " ++ text) e.text)

/-- Checks that a run can use the settings, and gives the first fault otherwise. -/
def check (w : Workspace) (s : Settings) : Except Failure Unit := do
  if !w.isDirectory s.scanPath then throw (.invalidPath s.scanPath)
  s.excludes.forM checkExclude
  if s.maxDepth = some 0 then throw (.setting "Max depth must be at least 1")
  if s.orchestrationFile.isEmpty then
    throw (.setting "Orchestration file name must not be empty")
  if s.moduleExtension.isEmpty then throw (.setting "Module extension must not be empty")
  s.outputFile.forM (checkOutput w)

end Settings

/-- The settings of a layer, if a run can use them. -/
def Layer.build (w : Workspace) (l : Layer) : Except Failure Settings := do
  l.settings.check w
  return l.settings

/-- The settings of a run. -/
def Workspace.loadSettings (w : Workspace) (arguments : Arguments) (stem : String) :
    Except Failure Settings := do
  (← w.layers arguments stem).build w

end StackGraph
