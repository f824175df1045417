import ClassAtlas.Corpus

/-!
# Relationships

Every ordered pair of types has at most one relationship. The kinds are tried in order of
precedence, and a composition or aggregation is not repeated in the other direction.
-/

namespace ClassAtlas

/-- The kinds of relationships, those with the highest precedence first. -/
inductive RelationshipKind
  | inherits
  | realizes
  | composes
  | aggregates
  | depends
  deriving DecidableEq, Repr

namespace RelationshipKind

/-- The kinds in order of precedence. -/
def all : List RelationshipKind :=
  [inherits, realizes, composes, aggregates, depends]

/-- The name of a kind in every listing. -/
def name : RelationshipKind → String
  | inherits => "inherits"
  | realizes => "realizes"
  | composes => "composes"
  | aggregates => "aggregates"
  | depends => "depends"

/-- The kind with a given name. -/
def ofName? (name : String) : Option RelationshipKind :=
  all.find? (·.name = name)

/-- The arrow of a kind in a diagram. -/
def marker : RelationshipKind → String
  | inherits => "--|>"
  | realizes => "..|>"
  | composes => "*--"
  | aggregates => "o--"
  | depends => "-->"

/-- The place of a kind in the order of precedence. -/
def rank : RelationshipKind → Nat
  | inherits => 0
  | realizes => 1
  | composes => 2
  | aggregates => 3
  | depends => 4

/-- A composition or aggregation from one type to another stands for the other direction, too. -/
def isUndirected : RelationshipKind → Bool
  | composes => true
  | aggregates => true
  | _ => false

end RelationshipKind

/-- A relationship between two types. -/
structure Edge where
  source : String
  target : String
  kind : RelationshipKind
  deriving DecidableEq, Repr

namespace Edge

/-- The edge connects a pair that the other edge connects already, or repeats it backwards. -/
def repeats (edge earlier : Edge) : Bool :=
  (edge.source = earlier.source && edge.target = earlier.target) ||
    (edge.kind.isUndirected && edge.kind = earlier.kind && edge.source = earlier.target &&
      edge.target = earlier.source)

/-- The edges with one more, unless it repeats one of them. -/
def add (edges : List Edge) (edge : Edge) : List Edge :=
  if edges.any edge.repeats then edges else edges ++ [edge]

end Edge

namespace Entity

/-- The target is another type of the corpus. -/
def knowsOther (entity : Entity) (known : NameSet) (target : String) : Bool :=
  target ≠ entity.name && target ∈ known

/-- The target is the superclass or one of the interfaces. -/
def isSupertype (entity : Entity) (target : String) : Bool :=
  entity.superclass = some target || target ∈ entity.interfaces

/-- The targets that an entity relates to by a relationship of the given kind. -/
def targets (entity : Entity) (known : NameSet) : RelationshipKind → List String
  | .inherits => entity.superclass.toList.filter (entity.knowsOther known)
  | .realizes => entity.interfaces.toList.filter (entity.knowsOther known)
  | .composes => entity.composition.toList.filter fun target =>
    entity.knowsOther known target && !entity.isSupertype target
  | .aggregates => entity.aggregation.toList.filter fun target =>
    (target = entity.name || entity.knowsOther known target) && !entity.isSupertype target
  | .depends => entity.efferent.toList.filter fun target =>
    entity.knowsOther known target && target ∉ entity.structuralTargets

/-- The relationships of an entity, by precedence and then by target. -/
def candidates (entity : Entity) (known : NameSet) : List Edge :=
  RelationshipKind.all.flatMap fun kind =>
    (entity.targets known kind).map fun target => ⟨entity.name, target, kind⟩

end Entity

/-- The relationships of a corpus, by the order of their sources, by precedence and by target. -/
def Corpus.relationships (corpus : Corpus) : List Edge :=
  (corpus.entities.flatMap fun entity => entity.candidates corpus.names).foldl Edge.add []

end ClassAtlas
