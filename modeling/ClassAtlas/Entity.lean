import ClassAtlas.NameSet
import ClassAtlas.Path
import ClassAtlas.Settings
import ClassAtlas.TypeKind
import ClassAtlas.Text.Blank
import ClassAtlas.Source.Branching
import ClassAtlas.Source.Fields
import ClassAtlas.Source.Header
import ClassAtlas.Source.Noise
import ClassAtlas.Source.Outline
import ClassAtlas.Source.References

/-!
# Entities

An entity is what is known about the type that one source file declares.
-/

namespace ClassAtlas

open ClassAtlas.Source

/-- What a declaration shows about its type. -/
structure Declaration where
  kind : TypeKind
  superclass : Option String
  interfaces : NameSet
  composition : NameSet
  aggregation : NameSet
  deriving DecidableEq, Repr

/-- The declaration of a type, read from its text without noise and its outline. Only known types
other than the own one count as superclass or interface. -/
def Declaration.ofText (containers : NameSet) (own : String) (known : NameSet)
    (text outline : List Char) : Declaration :=
  let fields := fieldTargets containers own known outline
  { kind := Source.kind text
    superclass := (Source.superclass? text).filter fun name => name ≠ own ∧ name ∈ known
    interfaces := (Source.interfaces text).filter fun name => name ≠ own ∧ name ∈ known
    composition := fields.composition
    aggregation := fields.aggregation }

/-- One type of the corpus. -/
structure Entity where
  /-- The path of the source file. -/
  path : String
  /-- The name of the type, which is the name of its file. -/
  name : String
  /-- The folder of the source file. -/
  folder : String
  /-- The number of lines of the source that are not blank. -/
  lines : Nat
  /-- The number of branches of the source. -/
  complexity : Nat
  kind : TypeKind
  superclass : Option String
  interfaces : NameSet
  /-- The types of its fields. -/
  composition : NameSet
  /-- The types that it collects. -/
  aggregation : NameSet
  /-- The types that it refers to. -/
  efferent : NameSet
  /-- The types that refer to it. -/
  afferent : NameSet
  deriving DecidableEq, Repr

namespace Entity

/-- The entity of one source file, given the names of all types of the corpus. Which types refer to
it is not known from the file itself. -/
def ofSource (settings : Settings) (known : NameSet) (path source : String) : Entity :=
  let own := Path.typeName path
  let text := withoutNoise source.toList
  let found := Declaration.ofText (NameSet.ofList settings.containerTypes) own known text
    (outline settings.outlineDepth text)
  { path
    name := own
    folder := Path.folder path
    lines := Text.nonBlankLines source.toList
    complexity := branchCount text
    kind := found.kind
    superclass := found.superclass
    interfaces := found.interfaces
    composition := found.composition
    aggregation := found.aggregation
    efferent := references own known text
    afferent := ∅ }

/-- The complexity band of the type. -/
def complexityBand (entity : Entity) : ComplexityBand :=
  ComplexityBand.ofCount entity.complexity

/-- The types that the declaration itself relates to. -/
def structuralTargets (entity : Entity) : NameSet :=
  NameSet.ofList
    (entity.superclass.toList ++ entity.interfaces.toList ++ entity.composition.toList ++
    entity.aggregation.toList)

end Entity

end ClassAtlas
