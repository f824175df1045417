import ClassAtlas.SourceTree.Repository

/-!
# Ignore files

A directory may hold files with rules on what to leave out of its subtree. Each directory with its
rules is a level, and a level deeper in the tree decides before one above it.
-/

namespace ClassAtlas.SourceTree

/-- Where a directory with rules stands, compared with the directory that is looked at. -/
inductive Standpoint
  /-- Around the root of the walk, with the names of the directories that lead down from it, the
  deepest one first. -/
  | around (way : List String)
  /-- In the walk, with its path as it is written. -/
  | inside (path : String)

/-- The rules of one directory. -/
structure Level where
  /-- The rules for this kind of walk. -/
  own : List Rule
  /-- The rules of version control. -/
  versioned : List Rule
  /-- The rules of version control that are not shared. -/
  excluded : List Rule
  /-- The directory is the root of a repository. -/
  isRepository : Bool
  standpoint : Standpoint

/-- The path that entries below a standpoint are reached through. The directories around the root of
the walk are taken to be near enough. -/
def Standpoint.path : Standpoint → String
  | .around _ => ""
  | .inside path => path

/-- The level of a directory of the tree. -/
def Level.ofEntries (tree : SourceTree) (standpoint : Standpoint)
    (entries : List (String × SourceTree)) :
    Level :=
  let folder : Folder := ⟨standpoint.path, entries⟩
  { own := folder.rules [".ignore"]
    versioned := folder.rules [".gitignore"]
    excluded := folder.excluded tree
    isRepository := folder.isRepository
    standpoint }

/-- The level seen from one directory further down. -/
def Level.below (level : Level) (name : String) : Level :=
  match level.standpoint with
  | .around way => { level with standpoint := .around (name :: way) }
  | .inside _ => level

/-- The path without a dot and a slash at its start. -/
def withoutDot : List Char → List Char
  | '.' :: '/' :: path => path
  | path => path

/-- The path without a slash at its start. -/
def withoutSlash : List Char → List Char
  | '/' :: path => path
  | path => path

/-- The path of an entry as the rules of a directory see it, both paths being written from the root
of the tree. Up to two dots at the start of the path of the entry do not count, and one at the start
of the path of the directory. Then the path of the directory is dropped where the other one starts
with it. -/
def seenFrom (folder entry : String) : String :=
  let base := withoutDot folder.toList
  let path := withoutDot (withoutDot entry.toList)
  if !isWritten "." (String.ofList base) && path.contains '/' && base.isPrefixOf path then
    String.ofList (withoutSlash (path.drop base.length))
  else String.ofList path

/-- An entry of a directory in a walk: the path of the directory as it is written, and the name. -/
structure Entry where
  folder : String
  name : String

/-- The path of an entry as it is written. -/
def Entry.path (entry : Entry) : String :=
  join entry.folder entry.name

/-- The path of an entry as the rules of the level see it. -/
def Level.pathOf (level : Level) (entry : Entry) : String :=
  match level.standpoint with
  | .around way => String.intercalate "/" (entry.name :: way).reverse
  | .inside path => seenFrom path entry.path

/-- The levels up to the root of the nearest repository. -/
def insideRepository : List Level → List Level
  | [] => []
  | level :: rest => if level.isRepository then [level] else level :: insideRepository rest

/-- What the levels say about an entry, the deepest level first. Rules for this kind of walk decide
before those of version control, which only count inside a repository. -/
def judge? (levels : List Level) (entry : Entry) (isDirectory : Bool) : Option Verdict :=
  let ask (rules : Level → List Rule) (levels : List Level) : Option Verdict :=
    levels.findSome? fun level => verdict? (rules level) (level.pathOf entry) isDirectory
  let repository := if levels.any (·.isRepository) then insideRepository levels else []
  (ask Level.own levels).or ((ask Level.versioned repository).or (ask Level.excluded repository))

/-- The entry is part of a walk: it is not left out, and hidden only if a rule keeps it. -/
def isVisible (levels : List Level) (entry : Entry) (isDirectory : Bool) : Bool :=
  match judge? levels entry isDirectory with
  | some .leaveOut => false
  | some .keep => true
  | none => !isHidden entry.name

end ClassAtlas.SourceTree
