import ClassAtlas.Failure
import ClassAtlas.Text.Blank

/-!
# Source trees

A source tree is a tree of directories with files at its leaves. Paths are followed one component at
a time, so that what stands in the way of a path is known exactly.
-/

namespace ClassAtlas

/-- A file with its bytes, or a directory with its entries. -/
inductive SourceTree
  | file (content : ByteArray)
  | directory (entries : List (String × SourceTree))
  deriving Inhabited

namespace SourceTree

/-- The directory without entries. -/
def empty : SourceTree :=
  directory []

/-- The entry of a directory with the given name. -/
def child? (name : String) : List (String × SourceTree) → Option SourceTree
  | [] => none
  | (other, tree) :: rest => if other = name then some tree else child? name rest

/-- Put an entry into a directory, in place of one of the same name. -/
def putChild (name : String) (tree : SourceTree) :
    List (String × SourceTree) → List (String × SourceTree)
  | [] => [(name, tree)]
  | (other, old) :: rest =>
    if other = name then (name, tree) :: rest else (other, old) :: putChild name tree rest

/-- The entries of a directory; a file has none. -/
def entries : SourceTree → List (String × SourceTree)
  | file _ => []
  | directory entries => entries

/-- The tree with another one at a path. Directories on the way are made when they are missing. -/
def put (new : SourceTree) : List String → SourceTree → SourceTree
  | [], _ => new
  | name :: rest, tree =>
    directory (putChild name (put new rest ((child? name tree.entries).getD empty)) tree.entries)

/-- The tree with a directory at a path, which keeps its entries if it is there. -/
def putDirectory : List String → SourceTree → SourceTree
  | [], tree => directory tree.entries
  | name :: rest, tree =>
    directory
      (putChild name (putDirectory rest ((child? name tree.entries).getD empty)) tree.entries)

/-- The components of a path, empty ones included. -/
def components (path : String) : List String :=
  (Text.splitAt (· = '/') path.toList).map String.ofList

/-- A place in a tree: the tree found there, and the directories around it, the nearest one first.
Each comes with the name of the entry that leads on to the place. -/
structure Place where
  around : List (String × List (String × SourceTree))
  tree : SourceTree

/-- How many bytes a name may have. -/
def nameLimit : Nat := 255

/-- How many bytes a path may have. -/
def pathLimit : Nat := 4095

/-- Follow one component. A single dot stays, two dots lead to the directory around. What lies
outside of the tree is not known, but for the directories that lead there, and these count as
empty. -/
def Place.follow (place : Place) (component : String) : Except ReadFault Place :=
  match place.tree with
  | file _ => .error .throughFile
  | directory entries =>
    if component = "" ∨ component = "." then .ok place
    else if component = ".." then
      match place.around with
      | [] => .ok ⟨[], empty⟩
      | (_, outer) :: around => .ok ⟨around, directory outer⟩
    else if nameLimit < component.utf8ByteSize then .error .tooLong
    else
      match child? component entries with
      | none => .error .missing
      | some tree => .ok ⟨(component, entries) :: place.around, tree⟩

/-- Follow a path from the root of the tree. A path that starts with a slash starts outside of
it. -/
def locate (tree : SourceTree) (path : String) : Except ReadFault Place :=
  if path = "" then .error .missing
  else if path.toList.contains '\x00' then .error .nulInPath
  else if pathLimit < path.utf8ByteSize then .error .tooLong
  else
    let start := if path.toList.head? = some '/' then empty else tree
    (components path).foldlM Place.follow ⟨[], start⟩

/-- The bytes of the file at a path. -/
def readBytes (tree : SourceTree) (path : String) : Except ReadFault ByteArray :=
  match tree.locate path with
  | .error fault => .error fault
  | .ok ⟨_, directory _⟩ => .error .directory
  | .ok ⟨_, file content⟩ => .ok content

/-- The text of the file at a path. -/
def readText (tree : SourceTree) (path : String) : Except ReadFault String :=
  match tree.readBytes path with
  | .error fault => .error fault
  | .ok content =>
    match String.fromUTF8? content with
    | some text => .ok text
    | none => .error .undecodable

/-- A path below a root. A path that starts with a slash stands for itself. -/
def join (root path : String) : String :=
  if path.toList.head? = some '/' ∨ root = "" then path
  else if root.toList.getLast? = some '/' then root ++ path
  else root ++ "/" ++ path

/-- The path is a way of writing one component: nothing but slashes and single dots follow it. -/
def isWritten (component path : String) : Bool :=
  match components path with
  | first :: rest => first = component && rest.all fun c => c = "" || c = "."
  | [] => false

/-- The name that a path ends in, if it does not end in a way upwards. -/
def lastName? (path : String) : Option String :=
  match ((components path).filter fun c => c ≠ "" ∧ c ≠ ".").getLast? with
  | some ".." => none
  | name => name

/-- An entry is hidden if its name starts with a dot. -/
def isHidden (name : String) : Bool :=
  name.toList.head? = some '.'

/-- A directory of this name is not entered: it is hidden, or one of those skipped. -/
def isSkippedName (skipped : List String) (name : String) : Bool :=
  isHidden name || name ∈ skipped

/-- The directory at this path is not entered. -/
def isSkipped (skipped : List String) (path : String) : Bool :=
  match lastName? path with
  | some name => isSkippedName skipped name
  | none => false

end SourceTree

end ClassAtlas
