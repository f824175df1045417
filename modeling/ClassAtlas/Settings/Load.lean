import ClassAtlas.Settings
import ClassAtlas.Text.Blank
import ClassAtlas.Toml.Document

/-!
# Where settings come from

The standard settings are changed by a settings file, and then by variables of the environment.
-/

namespace ClassAtlas.Settings

open ClassAtlas.Toml

/-- The value of a key, or a default if the key is missing. A value of another form has no
reading. -/
def valueOr {α : Type} (entries : Entries) (key : String) (default : α) (read : Node → Option α) :
    Option α :=
  match entries.get? key with
  | none => some default
  | some node => read node

/-- A text. -/
def text? : Node → Option String
  | .text value => some value
  | _ => none

/-- A truth value. -/
def boolean? : Node → Option Bool
  | .boolean value => some value
  | _ => none

/-- An integer that is not negative. -/
def count? : Node → Option Nat
  | .integer value => if 0 ≤ value then some value.toNat else none
  | _ => none

/-- A list of texts. -/
def texts? : Node → Option (List String)
  | .array items => items.mapM text?
  | _ => none

/-- The settings in the root table of a document. Keys that are missing keep their standard value,
and other keys are ignored. -/
def ofEntries? (entries : Entries) : Option Settings := do
  return {
    extension := ← valueOr entries "extension" standard.extension text?
    skippedDirectories := ← valueOr entries "skip_dirs" standard.skippedDirectories texts?
    maxDepth := ← valueOr entries "max_depth" standard.maxDepth count?
    outlineDepth := ← valueOr entries "declaration_depth" standard.outlineDepth count?
    parallel := ← valueOr entries "parallel" standard.parallel boolean?
    containerTypes := ← valueOr entries "container_types" standard.containerTypes texts? }

/-- The settings in the text of a settings file. -/
def ofText (text : String) : Except Failure Settings :=
  match (document? text).bind ofEntries? with
  | some settings => .ok settings
  | none => .error (.settings .malformed)

/-- The variables of the environment that change settings. -/
structure Environment where
  extension : Option String
  parallel : Option String
  outlineDepth : Option String
  deriving DecidableEq, Repr, Inhabited

/-- The name of the variable with the extension. -/
def extensionKey : String := "ARCHLENS_EXTENSION"

/-- The name of the variable that says whether files are analysed side by side. -/
def parallelKey : String := "ARCHLENS_PARALLEL"

/-- The name of the variable with the depth of the outline. -/
def outlineDepthKey : String := "ARCHLENS_DECLARATION_DEPTH"

/-- A truth value in words or as a digit, without regard to case and surrounding blanks. -/
def readBoolean (value : String) : Option Bool :=
  let word := String.ofList ((Text.trim value.toList).map Char.toLower)
  if word ∈ ["1", "true", "yes", "on"] then some true
  else if word ∈ ["0", "false", "no", "off"] then some false
  else none

/-- Digits of base ten, of which there is at least one. -/
def readDigits : List Char → Option Nat
  | [] => none
  | digits =>
    if digits.all Char.isDigit then
      some (digits.foldl (fun value c => value * 10 + (c.toNat - '0'.toNat)) 0)
    else none

/-- A count of 64 bits, with a plus sign or without, and with surrounding blanks or without. -/
def readCount (value : String) : Option Nat :=
  let digits := match Text.trim value.toList with
    | '+' :: rest => rest
    | text => text
  (readDigits digits).filter (· < UInt64.size)

/-- The settings changed by the environment. The variables are looked at in a fixed order, and the
first one that cannot be read is the failure. -/
def underEnvironment (settings : Settings) (environment : Environment) :
    Except Failure Settings := do
  let settings := match environment.extension with
    | some extension => { settings with extension }
    | none => settings
  let settings ← match environment.parallel with
    | none => pure settings
    | some value =>
      match readBoolean value with
      | some parallel => pure { settings with parallel }
      | none => throw (.settings (.notBoolean parallelKey value))
  match environment.outlineDepth with
  | none => pure settings
  | some value =>
    match readCount value with
    | some outlineDepth => pure { settings with outlineDepth }
    | none => throw (.settings (.notNumber outlineDepthKey value))

/-- A settings file as it was found: its name, and its text unless it could not be read. -/
abbrev File := String × Except ReadFault String

/-- The settings of a file. -/
def ofFile : File → Except Failure Settings
  | (_, .ok text) => ofText text
  | (path, .error fault) => .error (.settings (.unreadable path fault))

/-- The settings of a file if there is one, and the standard ones otherwise, under an
environment. -/
def load (file : Option File) (environment : Environment) : Except Failure Settings := do
  let settings ← match file with
    | some file => ofFile file
    | none => pure standard
  settings.underEnvironment environment

end ClassAtlas.Settings
