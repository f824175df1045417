import ClassAtlas.Corpus
import ClassAtlas.SourceTree.Walk

/-!
# Providers

A provider lists the files of a source set and fetches their texts. It may fail, never answer, or
break down.
-/

namespace ClassAtlas

/-- How a provider reacts to a request. -/
inductive Reply (α : Type)
  /-- It answers, or says why it cannot. -/
  | answer (result : Except Failure α)
  /-- It never answers. -/
  | stall
  /-- It breaks down. -/
  | crash

/-- A source of files. -/
structure Provider where
  /-- How the source is called. -/
  name : String
  /-- The paths of its files. -/
  listing : Reply (List String)
  /-- The text of the file at a path. -/
  fetch : String → Reply String

instance : Inhabited Provider := ⟨"", .stall, fun _ => .stall⟩

namespace Provider

/-- The number of files that the provider lists. -/
def fileCount (provider : Provider) : Nat :=
  match provider.listing with
  | .answer (.ok paths) => paths.length
  | _ => 0

/-- The text of the first file with the given path. -/
def fileText (files : List Corpus.SourceFile) (path : String) : Except Failure String :=
  match files.find? (·.1 = path) with
  | some (_, text) => .ok text
  | none => .error (.sourceFile path .unlisted)

/-- A provider of given files. -/
def ofFiles (name : String) (files : List Corpus.SourceFile) : Provider where
  name
  listing := .answer (.ok (files.map (·.1)))
  fetch path := .answer (fileText files path)

/-- The text of the file at a path below a root. -/
def treeText (tree : SourceTree) (root path : String) : Except Failure String :=
  match tree.readText (SourceTree.join root path) with
  | .ok text => .ok text
  | .error fault => .error (.sourceFile path fault)

/-- A provider of the source files below the root of a source tree. -/
def ofTree (settings : Settings) (tree : SourceTree) (root : String) : Provider where
  name := root
  listing := .answer (tree.collect settings root)
  fetch path := .answer (treeText tree root path)

end Provider

end ClassAtlas
