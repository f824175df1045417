import ClassAtlas.SourceTree
import ClassAtlas.SourceTree.Rule

/-!
# Repositories

The root of a repository has an entry for version control. Rules that are not shared lie below that
entry, or in a directory that it leads to.
-/

namespace ClassAtlas.SourceTree

/-- The rules in a file, none if it cannot be read. -/
def Rule.ofResult : Except ReadFault ByteArray → List Rule
  | .ok content => Rule.ofFile content
  | .error _ => []

/-- What is found below a tree by a list of names. -/
def descend? : List String → SourceTree → Option SourceTree
  | [], tree => some tree
  | name :: rest, directory entries => (child? name entries).bind (descend? rest)
  | _ :: _, file _ => none

/-- A directory whose entries are reached through its path. -/
structure Folder where
  path : String
  entries : List (String × SourceTree)

namespace Folder

/-- What is found below the folder by a list of names, unless the whole path is too long. -/
def find? (folder : Folder) (names : List String) : Option SourceTree :=
  if pathLimit < (join folder.path (String.intercalate "/" names)).utf8ByteSize then none
  else descend? names (directory folder.entries)

/-- The rules in a file below the folder, none if there is no such file. -/
def rules (folder : Folder) (names : List String) : List Rule :=
  match folder.find? names with
  | some (file content) => Rule.ofFile content
  | _ => []

/-- The folder is the root of a repository. -/
def isRepository (folder : Folder) : Bool :=
  (folder.find? [".git"]).isSome || (folder.find? [".jj"]).isSome

end Folder

/-- The first line of a file, unless the file is empty or the line is not UTF-8. -/
def firstLine? (content : ByteArray) : Option String :=
  if content.isEmpty then none else (fileLines content).head?.bind lineText?

/-- The directory of a repository with several work trees, given the file that one of them has in
the place of this directory. The file names a directory, in which another file leads to the one that
is shared. The first way starts at the root of the tree, and so does the second unless it starts
with a dot. -/
def sharedDirectory? (tree : SourceTree) (content : ByteArray) : Option String := do
  let line ← firstLine? content
  let mark := "gitdir: ".toList
  if !mark.isPrefixOf line.toList then none
  else
    let own := String.ofList (line.toList.drop mark.length)
    let shared ← (tree.readBytes (join own "commondir")).toOption.bind firstLine?
    return if shared.toList.head? = some '.' then join own shared else shared

/-- The rules of version control that are not shared, for a folder of the tree. -/
def Folder.excluded (tree : SourceTree) (folder : Folder) : List Rule :=
  match folder.find? [".git"] with
  | some (file content) =>
    match sharedDirectory? tree content with
    | some shared => Rule.ofResult (tree.readBytes (join shared "info/exclude"))
    | none => []
  | _ => folder.rules [".git", "info", "exclude"]

end ClassAtlas.SourceTree
