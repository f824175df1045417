import ClassAtlas.Corpus

/-!
# The folder tree

The paths of a corpus form a tree whose branches are the non-empty components. The children of a
node are in ascending order of their names.
-/

namespace ClassAtlas

/-- A node with its own name, its whole path, whether a file has that path, and its children. -/
inductive FolderTree
  | node (name path : String) (isFile : Bool) (children : List FolderTree)
  deriving Repr, Inhabited

namespace FolderTree

/-- The name of the node. -/
def name : FolderTree → String
  | node name _ _ _ => name

/-- The path of the node. -/
def path : FolderTree → String
  | node _ path _ _ => path

/-- A file has this path. -/
def isFile : FolderTree → Bool
  | node _ _ isFile _ => isFile

/-- The nodes right below this one. -/
def children : FolderTree → List FolderTree
  | node _ _ _ children => children

/-- The path of a child. -/
def childPath (parent child : String) : String :=
  if parent = "" then child else parent ++ "/" ++ child

/-- Change the child of the given name, which is put in its place if it is not there yet. -/
def updateChild (parent child : String) (change : FolderTree → FolderTree) :
    List FolderTree → List FolderTree
  | [] => [change (node child (childPath parent child) false [])]
  | tree :: rest =>
    if child < tree.name then change (node child (childPath parent child) false []) :: tree :: rest
    else if child = tree.name then change tree :: rest
    else tree :: updateChild parent child change rest

/-- The tree with one more file, given by the components of its path. -/
def insert : List String → FolderTree → FolderTree
  | [], node name path _ children => node name path true children
  | component :: rest, node name path isFile children =>
    node name path isFile (updateChild path component (insert rest) children)

/-- The tree of no files. -/
def root : FolderTree :=
  node "" "" false []

/-- The tree of the given paths. -/
def ofPaths (paths : List String) : FolderTree :=
  paths.foldl (fun tree path => tree.insert ((Path.components path.toList).map String.ofList)) root

mutual

/-- The node and all nodes below it, each before its children. -/
def nodes : FolderTree → List FolderTree
  | node name path isFile children => node name path isFile children :: nodesOf children

/-- The nodes of several trees. -/
def nodesOf : List FolderTree → List FolderTree
  | [] => []
  | tree :: rest => nodes tree ++ nodesOf rest

end

mutual

/-- The number of files at this node and below. -/
def fileCount : FolderTree → Nat
  | node _ _ isFile children => (if isFile then 1 else 0) + fileCountOf children

/-- The number of files in several trees. -/
def fileCountOf : List FolderTree → Nat
  | [] => 0
  | tree :: rest => fileCount tree + fileCountOf rest

end

mutual

/-- The first node with the given path, where each node comes before its children. -/
def find? (tree : FolderTree) (wanted : String) : Option FolderTree :=
  match tree with
  | node name path isFile children =>
    if path = wanted then some (node name path isFile children) else findAmong? children wanted

/-- The first node with the given path in several trees. -/
def findAmong? (trees : List FolderTree) (wanted : String) : Option FolderTree :=
  match trees with
  | [] => none
  | tree :: rest => (find? tree wanted).or (findAmong? rest wanted)

end

end FolderTree

/-- The tree of the paths of all entities. -/
def Corpus.folderTree (corpus : Corpus) : FolderTree :=
  FolderTree.ofPaths (corpus.entities.map (·.path))

end ClassAtlas
