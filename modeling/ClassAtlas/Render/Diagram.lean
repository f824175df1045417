import ClassAtlas.Relationship

/-!
# Class diagrams

The corpus as a diagram description: one block a type, then one line a relationship.
-/

namespace ClassAtlas.Render

/-- The keyword of a type in the diagram. -/
def keyword : TypeKind → String
  | .concrete => "class"
  | .abstract => "abstract class"
  | .interface => "interface"

/-- The block of one type. -/
def block (entity : Entity) : String :=
  keyword entity.kind ++ " " ++ entity.name ++ " \x7b\n  .. Metrics ..\n  Lines: " ++
    toString entity.lines ++ "\n  Complexity: " ++ toString entity.complexity ++ "\n\x7d\n\n"

/-- The line of one relationship. -/
def edgeLine (edge : Edge) : String :=
  edge.source ++ " " ++ edge.kind.marker ++ " " ++ edge.target ++ "\n"

/-- How every diagram starts. -/
def diagramStart : String :=
  "@startuml\nskinparam backgroundColor #FEFEFE\nskinparam classAttributeIconSize 0\n" ++
    "left to right direction\n\n"

/-- The diagram of a corpus with the given relationships. A name is declared once, by its first
entity. -/
def diagram (corpus : Corpus) (edges : List Edge) : String :=
  diagramStart ++ String.join ((Corpus.distinct corpus.entities).map block) ++
    String.join (edges.map edgeLine) ++ "\n@enduml\n"

end ClassAtlas.Render
