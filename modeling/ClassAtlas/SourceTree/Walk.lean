import ClassAtlas.Path
import ClassAtlas.Settings
import ClassAtlas.SourceTree.Ignore

/-!
# Walking a source tree

The source files below a root are those with the right extension in directories that are entered,
down to a greatest depth.
-/

namespace ClassAtlas.SourceTree

/-- The file has the extension. -/
def hasExtension (extension name : String) : Bool :=
  Path.extension? name.toList = some extension.toList

/-- What stays the same during a walk. -/
structure Walk where
  /-- The tree that the walk is part of. -/
  tree : SourceTree
  settings : Settings

mutual

/-- The source files at or below an entry of a directory, with their paths as lists of names. -/
def filesAt (walk : Walk) (levels : List Level) (depth : Nat) (entry : Entry) :
    SourceTree → List (List String)
  | file _ =>
    if 0 < depth && isVisible levels entry false &&
        hasExtension walk.settings.bareExtension entry.name then
      [[entry.name]]
    else []
  | directory entries =>
    if 0 < depth && isVisible levels entry true &&
        !isSkippedName walk.settings.skippedDirectories entry.name &&
        entry.path.utf8ByteSize ≤ pathLimit then
      let level := Level.ofEntries walk.tree (.inside entry.path) entries
      (filesIn walk (level :: levels.map (·.below entry.name)) (depth - 1) entry.path entries).map
        (entry.name :: ·)
    else []

/-- The source files at or below all entries of a directory, whose path is written `path`. Entries
lie at most `depth` levels down. -/
def filesIn (walk : Walk) (levels : List Level) (depth : Nat) (path : String) :
    List (String × SourceTree) → List (List String)
  | [] => []
  | (name, tree) :: rest =>
    filesAt walk levels depth ⟨path, name⟩ tree ++ filesIn walk levels depth path rest

end

/-- The levels of the directories around a place, the nearest one first. The way from the nearest
one down to the place starts with `way`. -/
def levelsAround (tree : SourceTree) (way : List String) :
    List (String × List (String × SourceTree)) → List Level
  | [] => []
  | (name, entries) :: around =>
    let way := way ++ [name]
    Level.ofEntries tree (.around way) entries :: levelsAround tree way around

/-- A dash is no directory to be walked through: it stands for what is piped in. -/
def isPiped (root : String) : Bool :=
  isWritten "-" root

/-- The source files below a root, in ascending order of their paths. The root is entered whatever
its name is, and the rules of the directories around it count, too. A root that stands for what is
piped in has no files, but must be a directory nevertheless. -/
def collect (tree : SourceTree) (settings : Settings) (root : String) :
    Except Failure (List String) :=
  match tree.locate root with
  | .ok ⟨around, directory entries⟩ =>
    if isPiped root then .ok []
    else
      let levels := Level.ofEntries tree (.inside root) entries :: levelsAround tree [] around
      let files := filesIn ⟨tree, settings⟩ levels settings.maxDepth root entries
      .ok ((files.map (String.intercalate "/" ·)).mergeSort fun a b => a ≤ b)
  | _ => .error (.provider (.notDirectory root))

end ClassAtlas.SourceTree
