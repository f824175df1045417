import ClassAtlas.Render.Artifact

/-!
# The command line

Options may stand anywhere among the arguments. A value of an option is only looked at when the next
argument shows that it is complete, so an argument that is not understood at all is reported first.
-/

namespace ClassAtlas

/-- What a user asks for. -/
structure Options where
  /-- The root of the source tree. -/
  path : String
  format : Render.Format
  /-- The folder that listings are limited to. -/
  folder : Option String
  /-- The settings file. -/
  config : Option String
  parallel : Bool
  verbose : Bool
  deriving DecidableEq, Repr

namespace CommandLine

/-- Why arguments give no options. -/
inductive Refusal
  /-- A value is missing, empty or none of the possible ones. -/
  | invalidValue
  /-- An argument has no meaning. -/
  | unknownArgument
  /-- An option is given twice. -/
  | argumentConflict
  /-- A flag is given a value. -/
  | tooManyValues
  /-- The user asks for help. -/
  | help
  /-- The user asks for the version. -/
  | version
  deriving DecidableEq, Repr

/-- The options that take a value. -/
inductive Slot
  | path
  | format
  | folder
  | config
  deriving DecidableEq, Repr

/-- The options that take none. -/
inductive Flag
  | parallel
  | verbose
  | help
  | version
  deriving DecidableEq, Repr

/-- What has been read of the arguments. -/
structure Reading where
  path : Option String := none
  format : Option Render.Format := none
  folder : Option String := none
  config : Option String := none
  parallel : Bool := false
  verbose : Bool := false
  /-- An option that has not been looked at yet, with its value once that has been read. -/
  pending : Option (Slot × Option String) := none
  /-- The one argument that is no option has been read. -/
  hasPath : Bool := false
  /-- No argument from here on is an option. -/
  onlyPositional : Bool := false
  deriving DecidableEq, Repr

namespace Reading

/-- A path has at least one character. -/
def nonEmpty (value : String) : Except Refusal String :=
  if value = "" then .error .invalidValue else .ok value

/-- Take the value of an option. -/
def store (r : Reading) (slot : Slot) (value : String) : Except Refusal Reading :=
  match slot with
  | .path => do
    if r.path.isSome then throw .argumentConflict
    return { r with path := some (← nonEmpty value) }
  | .format => do
    if r.format.isSome then throw .argumentConflict
    match Render.Format.ofName? value with
    | none => throw .invalidValue
    | some format => return { r with format := some format }
  | .folder => do
    if r.folder.isSome then throw .argumentConflict
    return { r with folder := some value }
  | .config => do
    if r.config.isSome then throw .argumentConflict
    return { r with config := some (← nonEmpty value) }

/-- Look at the pending option, which must have its value by now. -/
def settle (r : Reading) : Except Refusal Reading :=
  match r.pending with
  | none => .ok r
  | some (_, none) => .error .invalidValue
  | some (slot, some value) => { r with pending := none }.store slot value

/-- Take an option with its value, or wait for the value. -/
def take (r : Reading) (slot : Slot) (attached : Option String) : Except Refusal Reading := do
  let r ← r.settle
  match attached with
  | some value => r.store slot value
  | none => return { r with pending := some (slot, none) }

/-- Take a flag. -/
def raise (r : Reading) (flag : Flag) : Except Refusal Reading := do
  let r ← r.settle
  match flag with
  | .parallel => if r.parallel then throw .argumentConflict else return { r with parallel := true }
  | .verbose => if r.verbose then throw .argumentConflict else return { r with verbose := true }
  | .help => throw .help
  | .version => throw .version

/-- Take the argument that is no option. There is only one. -/
def positional (r : Reading) (value : String) : Except Refusal Reading := do
  if r.hasPath then throw .unknownArgument
  let r ← r.settle
  return { r with pending := some (.path, some value), hasPath := true }

/-- An option is one that takes a value, or a flag. -/
abbrev Name := Slot ⊕ Flag

/-- The option with a long name. -/
def longName? (name : String) : Option Name :=
  match name with
  | "format" => some (.inl .format)
  | "folder" => some (.inl .folder)
  | "config" => some (.inl .config)
  | "parallel" => some (.inr .parallel)
  | "verbose" => some (.inr .verbose)
  | "help" => some (.inr .help)
  | "version" => some (.inr .version)
  | _ => none

/-- The option with a short name. -/
def shortName? (c : Char) : Option Name :=
  match c with
  | 'f' => some (.inl .format)
  | 'c' => some (.inl .config)
  | 'v' => some (.inr .verbose)
  | 'h' => some (.inr .help)
  | 'V' => some (.inr .version)
  | _ => none

/-- Read an option by its long name, with a value after an equals sign if there is one. -/
def long (r : Reading) (text : List Char) : Except Refusal Reading :=
  let name := text.takeWhile (· ≠ '=')
  let attached := match text.dropWhile (· ≠ '=') with
    | [] => none
    | _ :: value => some (String.ofList value)
  match longName? (String.ofList name), attached with
  | none, _ => .error .unknownArgument
  | some (.inl slot), attached => r.take slot attached
  | some (.inr _), some _ => .error .tooManyValues
  | some (.inr flag), none => r.raise flag

/-- Read options by their short names. An option that takes a value takes the rest, without an
equals sign in front of it. -/
def short (r : Reading) : List Char → Except Refusal Reading
  | [] => .ok r
  | c :: rest =>
    match shortName? c with
    | none => .error .unknownArgument
    | some (.inr flag) =>
      match r.raise flag with
      | .error refusal => .error refusal
      | .ok r => r.short rest
    | some (.inl slot) =>
      match rest with
      | [] => r.take slot none
      | '=' :: value => r.take slot (some (String.ofList value))
      | value => r.take slot (some (String.ofList value))

/-- Read an argument that is no option: the value that an option waits for, or the path. -/
def plain (r : Reading) (value : String) : Except Refusal Reading :=
  match r.pending with
  | some (slot, none) => .ok { r with pending := some (slot, some value) }
  | _ => r.positional value

/-- Read one argument. A single dash is no option, and two dashes end the options. -/
def argument (r : Reading) (argument : String) : Except Refusal Reading :=
  if r.onlyPositional then r.positional argument
  else
    match argument.toList with
    | ['-', '-'] => .ok { r with onlyPositional := true }
    | '-' :: '-' :: text => r.long text
    | '-' :: c :: rest => r.short (c :: rest)
    | _ => r.plain argument

/-- The options that have been read, with defaults for all that are missing. -/
def options (r : Reading) : Options where
  path := r.path.getD "."
  format := r.format.getD .diagram
  folder := r.folder
  config := r.config
  parallel := r.parallel
  verbose := r.verbose

end Reading

/-- The options that the arguments give. The first argument that is wrong, or asks for help or for
the version, decides. -/
def read (arguments : List String) : Except Refusal Options := do
  let r ← arguments.foldlM Reading.argument {}
  let r ← r.settle
  return r.options

end CommandLine

/-- The artifact that a user asks for. -/
def Options.artifact (options : Options) (corpus : Corpus) : String :=
  Render.artifact options.format options.folder corpus

end ClassAtlas
