import ClassAtlas.Corpus

/-!
# Design metrics

A type is stable when many types refer to it and it refers to few. Types that are both abstract and
stable, or both concrete and unstable, lie on the main sequence, and the distance from it rates a
design.
-/

namespace ClassAtlas

/-- The rating of a type by its distance from the main sequence. -/
inductive QualityBand
  | good
  | warning
  | problematic
  deriving DecidableEq, Repr

namespace QualityBand

/-- Below a tenth is good, below three tenths deserves a warning. -/
def ofDistance (distance : Float) : QualityBand :=
  if distance < 0.1 then good else if distance < 0.3 then warning else problematic

/-- The name of a band in every listing. -/
def name : QualityBand → String
  | good => "good"
  | warning => "warning"
  | problematic => "problematic"

/-- The bands from the best to the worst. -/
def all : List QualityBand :=
  [good, warning, problematic]

end QualityBand

/-- A count as a number in double precision. Counts are words of 64 bits. -/
def ofCount (count : Nat) : Float :=
  count.toUInt64.toFloat

/-- The sum of counts, as a word of 64 bits. -/
def total (counts : List Nat) : Nat :=
  counts.foldr (· + ·) 0 % UInt64.size

/-- The metrics of one type. -/
structure Metrics where
  name : String
  path : String
  kind : TypeKind
  lines : Nat
  complexity : Nat
  complexityBand : Source.ComplexityBand
  /-- How many types it refers to. -/
  efferent : Nat
  /-- How many types refer to it. -/
  afferent : Nat
  /-- One for abstract classes and interfaces, zero for concrete classes. -/
  abstractness : Float
  /-- The share of outgoing references among all references. -/
  instability : Float
  /-- The distance from the main sequence. -/
  distance : Float
  quality : QualityBand

namespace Entity

/-- One for abstract classes and interfaces, zero for concrete classes. -/
def abstractness (entity : Entity) : Float :=
  if entity.kind.isAbstract then 1.0 else 0.0

/-- The share of outgoing references among all references, zero if there are none. -/
def instability (entity : Entity) : Float :=
  let outgoing := entity.efferent.size
  let all := outgoing + entity.afferent.size
  if all = 0 then 0.0 else ofCount outgoing / ofCount all

/-- The metrics of an entity. -/
def metrics (entity : Entity) : Metrics :=
  let distance := (entity.abstractness + entity.instability - 1.0).abs
  { name := entity.name
    path := entity.path
    kind := entity.kind
    lines := entity.lines
    complexity := entity.complexity
    complexityBand := entity.complexityBand
    efferent := entity.efferent.size
    afferent := entity.afferent.size
    abstractness := entity.abstractness
    instability := entity.instability
    distance
    quality := QualityBand.ofDistance distance }

end Entity

/-- The metrics of a selection of entities. -/
structure Assessment where
  entities : List Metrics
  totalEntities : Nat
  totalLines : Nat
  averageComplexity : Float
  averageDistance : Float
  abstractCount : Nat
  interfaceCount : Nat

namespace Assessment

/-- The quotient of a sum and a number of items, zero if there are none. -/
def average (sum : Float) (items : Nat) : Float :=
  if items = 0 then 0.0 else sum / ofCount items

/-- The metrics of the given entities, in their order. Distances are added up from the first to the
last. -/
def ofEntities (entities : List Entity) : Assessment :=
  let all := entities.map Entity.metrics
  { entities := all
    totalEntities := all.length
    totalLines := total (all.map (·.lines))
    averageComplexity := average (ofCount (total (all.map (·.complexity)))) all.length
    averageDistance := average ((all.map (·.distance)).foldl (· + ·) 0.0) all.length
    abstractCount := all.countP (·.kind = .abstract)
    interfaceCount := all.countP (·.kind = .interface) }

/-- The number of entities in a band. -/
def countIn (assessment : Assessment) (band : QualityBand) : Nat :=
  assessment.entities.countP (·.quality = band)

end Assessment

namespace Corpus

/-- The size of an entity relative to the largest one, between zero and one. -/
def sizeWeight (corpus : Corpus) (entity : Entity) : Float :=
  let most := corpus.maxLines
  if most = 0 then 0.0
  else
    let weight := ofCount entity.lines / ofCount most
    if weight < 1.0 then weight else 1.0

/-- The assessment of a folder, or of the whole corpus if no folder is given. -/
def assess (corpus : Corpus) (folder : Option String) : Assessment :=
  Assessment.ofEntities (corpus.selection folder)

end Corpus

end ClassAtlas
