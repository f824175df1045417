/-!
# Paths

A path names a source file inside its source set. Its components are separated by a slash, on every
system.
-/

namespace ClassAtlas.Path

/-- The characters after the last slash. -/
def lastComponent (path : List Char) : List Char :=
  (path.reverse.takeWhile (· ≠ '/')).reverse

/-- The characters before the last slash, none if there is no slash. -/
def beforeLastSlash (path : List Char) : List Char :=
  ((path.reverse.dropWhile (· ≠ '/')).drop 1).reverse

/-- A file name without its extension. A name whose last dot comes first has no extension. -/
def withoutExtension (fileName : List Char) : List Char :=
  match (fileName.reverse.dropWhile (· ≠ '.')).drop 1 with
  | [] => fileName
  | stem => stem.reverse

/-- What follows the last dot of a file name, unless that dot comes first. -/
def extension? (fileName : List Char) : Option (List Char) :=
  match (fileName.reverse.dropWhile (· ≠ '.')).drop 1 with
  | [] => none
  | _ => some (fileName.reverse.takeWhile (· ≠ '.')).reverse

/-- The last component of a path. -/
def fileName (path : String) : String :=
  String.ofList (lastComponent path.toList)

/-- The folder that holds the file; the files at the top are in the empty folder. -/
def folder (path : String) : String :=
  String.ofList (beforeLastSlash path.toList)

/-- The type that a file declares has the name of the file. -/
def typeName (path : String) : String :=
  String.ofList (withoutExtension (lastComponent path.toList))

/-- The file is directly inside the folder, not deeper. -/
def isDirectChild (path folder : String) : Bool :=
  if folder = "" then !path.toList.contains '/'
  else
    match folder.toList.isPrefixOf? path.toList with
    | some ('/' :: rest) => !rest.isEmpty && !rest.contains '/'
    | _ => false

/-- The non-empty components of a path. -/
def components (path : List Char) : List (List Char) :=
  match path with
  | [] => []
  | c :: rest =>
    if c = '/' then components rest
    else
      match rest with
      | [] => [[c]]
      | d :: _ =>
        if d = '/' then [c] :: components rest
        else
          match components rest with
          | [] => [[c]]
          | first :: others => (c :: first) :: others

/-- The prefixes of a folder that end before a slash, longest last, and the folder itself at the
end. -/
def enclosing (before : List Char) : List Char → List (List Char)
  | [] => [before.reverse]
  | c :: rest =>
    if c = '/' then before.reverse :: enclosing (c :: before) rest else enclosing (c :: before) rest

/-- The folder and the folders around it, without the empty folder at the top. -/
def foldersAround (folder : String) : List String :=
  ((enclosing [] folder.toList).filter (!·.isEmpty)).map String.ofList

end ClassAtlas.Path
