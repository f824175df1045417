import ClassAtlas.CommandLine
import ClassAtlas.Session
import ClassAtlas.Settings.Load

/-!
# The program

What the program does with its arguments, given everything that it can see from where it is called.
-/

namespace ClassAtlas

/-- What the program sees: the files of the directory in which it is called, the user's own settings
file if there is one, and the environment. -/
structure Workplace where
  files : SourceTree
  userSettings : Option Settings.File
  environment : Settings.Environment

namespace Workplace

/-- The name of the user's own settings file. -/
def userSettingsName : String := "~/.config/archlens/config.toml"

/-- The workplace of a tree in which the name of a tilde stands for the user's own directory. -/
def ofTree (files : SourceTree) (environment : Settings.Environment) : Workplace where
  files
  userSettings :=
    match files.locate userSettingsName with
    | .ok _ => some (userSettingsName, files.readText userSettingsName)
    | .error _ => none
  environment

/-- The settings file to use: the one that is asked for, or else the user's own. -/
def settingsFile (place : Workplace) : Option String → Option Settings.File
  | some path => some (path, place.files.readText path)
  | none => place.userSettings

/-- The settings under the given options. -/
def settings (place : Workplace) (options : Options) : Except Failure Settings :=
  match Settings.load (place.settingsFile options.config) place.environment with
  | .ok settings => .ok { settings with parallel := options.parallel || settings.parallel }
  | .error failure => .error failure

/-- The artifact that the options ask for, made in a session of its own. -/
def artifact (place : Workplace) (options : Options) : Except Failure String := do
  let settings ← place.settings options
  let provider := Provider.ofTree settings place.files options.path
  match ((Session.new settings).start provider).wait with
  | (_, some (.error failure)) => throw failure
  | (session, _) => return options.artifact (← session.corpus)

end Workplace

/-- What the program leaves behind. -/
structure Output where
  exitCode : UInt8
  stdout : String
  stderr : String
  deriving DecidableEq, Repr

namespace Program

/-- The name and the version of the program. -/
def version : String := "archlens 0.3.0"

/-- How the program is called. -/
def usage : String :=
  "Usage: archlens [-f plantuml|json|toon|report] [--folder FOLDER] [-c FILE] [--parallel] [-v] " ++
    "[PATH]"

/-- What is said in place of a result when the arguments give no options. -/
def explain : CommandLine.Refusal → Output
  | .help => ⟨0, usage ++ "\n", ""⟩
  | .version => ⟨0, version ++ "\n", ""⟩
  | .invalidValue => ⟨2, "", "error: invalid or missing value\n" ++ usage ++ "\n"⟩
  | .unknownArgument => ⟨2, "", "error: unexpected argument\n" ++ usage ++ "\n"⟩
  | .argumentConflict => ⟨2, "", "error: argument used more than once\n" ++ usage ++ "\n"⟩
  | .tooManyValues => ⟨2, "", "error: value for an argument that takes none\n" ++ usage ++ "\n"⟩

/-- Run the program with options. -/
def runWith (place : Workplace) (options : Options) : Output :=
  match place.artifact options with
  | .ok text => ⟨0, text ++ "\n", ""⟩
  | .error failure => ⟨failure.exitCode, "", failure.status ++ "\n"⟩

/-- Run the program with arguments. -/
def run (place : Workplace) (arguments : List String) : Output :=
  match CommandLine.read arguments with
  | .ok options => runWith place options
  | .error refusal => explain refusal

end Program

end ClassAtlas
