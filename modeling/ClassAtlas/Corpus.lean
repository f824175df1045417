import ClassAtlas.Entity

/-!
# The corpus

The corpus holds the entities of a whole source set. Only here is it known which types refer to a
type.
-/

namespace ClassAtlas

/-- All entities of a source set, in the order of their files. -/
structure Corpus where
  entities : List Entity
  deriving DecidableEq, Repr, Inhabited

namespace Corpus

/-- Where the entities of each name stand in a list of entities. -/
abbrev Places := List (String × List Nat)

/-- The places with one more for the given name. -/
def Places.add (name : String) (place : Nat) : Places → Places
  | [] => [(name, [place])]
  | (other, found) :: rest =>
    if other = name then (other, found ++ [place]) :: rest
    else (other, found) :: Places.add name place rest

/-- The places of the entities of the given name. -/
def Places.find (name : String) : Places → List Nat
  | [] => []
  | (other, found) :: rest => if other = name then found else Places.find name rest

/-- The places of all names. An entity stands at the place of its position in the list. -/
def places (entities : List Entity) : Places :=
  entities.zipIdx.foldl (fun places (entity, place) => places.add entity.name place) []

/-- Note a name at each of the given places. -/
def noteAt (name : String) (noted : Array NameSet) (places : List Nat) : Array NameSet :=
  places.foldl (fun noted place => noted.modify place (·.insert name)) noted

/-- Note the name of an entity at the places of all types that it refers to. -/
def noteReferences (places : Places) (noted : Array NameSet) (entity : Entity) : Array NameSet :=
  entity.efferent.toList.foldl
    (fun noted target => noteAt entity.name noted (places.find target)) noted

/-- For every place the names of the entities that refer to the type there. -/
def referrers (entities : List Entity) : Array NameSet :=
  entities.foldl (noteReferences (places entities)) (Array.replicate entities.length ∅)

/-- The entities, each with the names of those that refer to it. -/
def link (entities : List Entity) : List Entity :=
  List.zipWith (fun entity afferent => { entity with afferent }) entities
    (referrers entities).toList

/-- The corpus of the given entities. What they say about their dependants is computed anew. -/
def ofEntities (entities : List Entity) : Corpus :=
  ⟨link entities⟩

/-- The names of the types that the files declare. -/
def typeNames (paths : List String) : NameSet :=
  NameSet.ofList (paths.map Path.typeName)

/-- A source file with its text. -/
abbrev SourceFile := String × String

/-- The entities of source files that are analysed against a set of known names. -/
def analyse (settings : Settings) (known : NameSet) (files : List SourceFile) : List Entity :=
  files.map fun (path, source) => Entity.ofSource settings known path source

/-- The corpus of a list of source files. The known types are those of the files. -/
def ofSources (settings : Settings) (files : List SourceFile) : Corpus :=
  ofEntities (analyse settings (typeNames (files.map (·.1))) files)

/-- The number of entities. -/
def size (corpus : Corpus) : Nat :=
  corpus.entities.length

/-- The first entity of the given name. -/
def get? (corpus : Corpus) (name : String) : Option Entity :=
  corpus.entities.find? (·.name = name)

/-- The names of all entities. -/
def names (corpus : Corpus) : NameSet :=
  NameSet.ofList (corpus.entities.map (·.name))

/-- There is an entity of the given name. -/
def contains (corpus : Corpus) (name : String) : Bool :=
  corpus.entities.any (·.name = name)

/-- The entities whose files are directly inside the folder. -/
def inFolder (corpus : Corpus) (folder : String) : List Entity :=
  corpus.entities.filter fun entity => Path.isDirectChild entity.path folder

/-- The entities of a folder, or all of them if no folder is given. -/
def selection (corpus : Corpus) : Option String → List Entity
  | some folder => corpus.inFolder folder
  | none => corpus.entities

/-- Note the folders on the way up, which is given from the innermost one on. The way ends at the
first folder that is noted already. -/
def noteUpwards (noted : NameSet) : List String → NameSet
  | [] => noted
  | folder :: above => if folder ∈ noted then noted else noteUpwards (noted.insert folder) above

/-- Every folder that holds an entity, directly or deeper, but for the top. -/
def folders (corpus : Corpus) : NameSet :=
  corpus.entities.foldl
    (fun noted entity => noteUpwards noted (Path.foldersAround entity.folder).reverse) ∅

/-- The largest number of lines of an entity. -/
def maxLines (corpus : Corpus) : Nat :=
  corpus.entities.foldl (fun most entity => max most entity.lines) 0

/-- The entities without those whose name occurred before. -/
def distinct : List Entity → List Entity
  | [] => []
  | entity :: rest => entity :: (distinct rest).filter fun other => other.name ≠ entity.name

end Corpus

end ClassAtlas
