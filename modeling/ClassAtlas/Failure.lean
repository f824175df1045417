import ClassAtlas.Text.Quoted

/-!
# Failures

Everything that can go wrong, by cause. Reading a source text never fails; only settings, providers
and requests that come too early do.
-/

namespace ClassAtlas

/-- Why a file could not be read. -/
inductive ReadFault
  /-- There is no file of this name. -/
  | missing
  /-- A component before the last one is no directory. -/
  | throughFile
  /-- The path leads to a directory. -/
  | directory
  /-- The path, or a name in it, is too long. -/
  | tooLong
  /-- The path has a NUL in it. -/
  | nulInPath
  /-- The bytes are not UTF-8. -/
  | undecodable
  /-- The source set does not list this file. -/
  | unlisted
  /-- A reason given by the provider. -/
  | reported (reason : String)
  deriving DecidableEq, Repr

/-- The wording of a reason. -/
def ReadFault.message : ReadFault → String
  | missing => "No such file or directory (os error 2)"
  | throughFile => "Not a directory (os error 20)"
  | directory => "Is a directory (os error 21)"
  | tooLong => "File name too long (os error 36)"
  | nulInPath => "file name contained an unexpected NUL byte"
  | undecodable => "not valid UTF-8"
  | unlisted => "no such file"
  | reported reason => reason

/-- What is wrong with the settings. -/
inductive SettingsFault
  /-- The source extension is empty once its leading dots are gone. -/
  | emptyExtension
  /-- The outline would not even hold the header. -/
  | zeroDepth
  /-- No container type is listed. -/
  | noContainers
  /-- The settings file cannot be read. -/
  | unreadable (path : String) (fault : ReadFault)
  /-- The settings file is not a document of the expected form. -/
  | malformed
  /-- A variable of the environment is no truth value. -/
  | notBoolean (key value : String)
  /-- A variable of the environment is no number. -/
  | notNumber (key value : String)
  /-- A reason given by the provider. -/
  | reported (reason : String)
  deriving DecidableEq, Repr

/-- The wording of a reason. -/
def SettingsFault.message : SettingsFault → String
  | emptyExtension => "extension must not be empty"
  | zeroDepth => "declaration_depth must be at least 1"
  | noContainers => "container_types must list at least one type"
  | unreadable path .undecodable =>
    "cannot read " ++ path ++ ": stream did not contain valid UTF-8"
  | unreadable path fault => "cannot read " ++ path ++ ": " ++ fault.message
  | malformed => "invalid config:"
  | notBoolean key value => key ++ " must be a boolean, got " ++ Text.quoted value
  | notNumber key value => key ++ " must be a number, got " ++ Text.quoted value
  | reported reason => reason

/-- Why a source set could not be listed or analysed. -/
inductive ProviderFault
  /-- The root of the source tree is no directory. -/
  | notDirectory (root : String)
  /-- The analysis broke off. -/
  | crashed
  /-- A reason given by the provider. -/
  | reported (reason : String)
  deriving DecidableEq, Repr

/-- The wording of a reason. -/
def ProviderFault.message : ProviderFault → String
  | notDirectory root => root ++ " is not a directory"
  | crashed => "analysis task failed:"
  | reported reason => reason

/-- What can go wrong. -/
inductive Failure
  | settings (fault : SettingsFault)
  | provider (fault : ProviderFault)
  | sourceFile (path : String) (fault : ReadFault)
  | cancelled
  | notReady
  | serialization (reason : String)
  | io (reason : String)
  deriving DecidableEq, Repr

namespace Failure

/-- The one line that tells a user what went wrong. -/
def message : Failure → String
  | settings fault => "configuration error: " ++ fault.message
  | provider fault => "provider error: " ++ fault.message
  | sourceFile path fault => "cannot read " ++ path ++ ": " ++ fault.message
  | cancelled => "analysis cancelled"
  | notReady => "analysis results are not ready"
  | serialization reason => "serialization failed: " ++ reason
  | io reason => reason

/-- The exit code of the command line. -/
def exitCode : Failure → UInt8
  | settings _ => 2
  | provider _ => 3
  | sourceFile _ _ => 3
  | cancelled => 4
  | notReady => 4
  | serialization _ => 1
  | io _ => 1

/-- A failure ends a whole run unless it concerns a single file, which is skipped instead. -/
def isFatal : Failure → Bool
  | sourceFile _ _ => false
  | _ => true

end Failure

end ClassAtlas
