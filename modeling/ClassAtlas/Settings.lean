import ClassAtlas.Failure

/-!
# Settings

What a user can choose about an analysis: which files are read, how deep a declaration outline
reaches and which types count as containers.
-/

namespace ClassAtlas

/-- The settings of an analysis. -/
structure Settings where
  /-- The extension of source files, with or without leading dots. -/
  extension : String
  /-- The names of directories that are never entered. -/
  skippedDirectories : List String
  /-- How many components the path of a source file may have. -/
  maxDepth : Nat
  /-- How many braces deep the outline of a declaration reaches. -/
  outlineDepth : Nat
  /-- Files may be analysed at the same time; the result is the same. -/
  parallel : Bool
  /-- The generic types whose fields are aggregations. -/
  containerTypes : List String
  deriving DecidableEq, Repr

namespace Settings

/-- The collection types of the standard library. -/
def standardContainers : List String :=
  ["List", "ArrayList", "LinkedList", "Collection", "Iterable", "Set", "HashSet", "LinkedHashSet",
    "TreeSet", "SortedSet", "Queue", "Deque", "ArrayDeque", "PriorityQueue", "Stack",
    "Vector", "Map",
    "HashMap", "LinkedHashMap", "TreeMap", "SortedMap", "ConcurrentHashMap", "Optional"]

/-- The settings of a user who has chosen nothing. -/
def standard : Settings where
  extension := "java"
  skippedDirectories := ["target", "build", "out", "node_modules", ".git"]
  maxDepth := 64
  outlineDepth := 1
  parallel := false
  containerTypes := standardContainers

instance : Inhabited Settings := ⟨standard⟩

/-- The extension without its leading dots. -/
def bareExtension (settings : Settings) : String :=
  String.ofList (settings.extension.toList.dropWhile (· = '.'))

/-- The first thing that is wrong with the settings. -/
def fault? (settings : Settings) : Option SettingsFault :=
  if settings.bareExtension = "" then some .emptyExtension
  else if settings.outlineDepth = 0 then some .zeroDepth
  else if settings.containerTypes = [] then some .noContainers
  else none

/-- The settings can be used. -/
def validate (settings : Settings) : Except Failure Unit :=
  match settings.fault? with
  | none => .ok ()
  | some fault => .error (.settings fault)

end Settings

end ClassAtlas
