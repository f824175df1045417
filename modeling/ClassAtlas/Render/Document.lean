import ClassAtlas.Json
import ClassAtlas.Metrics
import ClassAtlas.Relationship
import ClassAtlas.Corpus.FolderTree

/-!
# JSON documents

The values of the library as JSON.
-/

namespace ClassAtlas

/-- The members as a list of texts. -/
def NameSet.toJson (names : NameSet) : Json :=
  .list (names.toList.map .text)

/-- The entity with all that is known about it. -/
def Entity.toJson (entity : Entity) : Json :=
  .object
    [("path", .text entity.path), ("name", .text entity.name), ("folder", .text entity.folder),
      ("lines_of_code", .natural entity.lines), ("complexity", .natural entity.complexity),
      ("kind", .text entity.kind.name),
      ("superclass", match entity.superclass with | some name => .text name | none => .null),
      ("interfaces", entity.interfaces.toJson), ("composition_targets", entity.composition.toJson),
      ("aggregation_targets", entity.aggregation.toJson),
      ("efferent_targets", entity.efferent.toJson), ("afferent_targets", entity.afferent.toJson)]

/-- The metrics of one entity. -/
def Metrics.toJson (m : Metrics) : Json :=
  .object
    [("name", .text m.name), ("path", .text m.path), ("kind", .text m.kind.name),
      ("lines_of_code", .natural m.lines), ("complexity", .natural m.complexity),
      ("complexity_band", .text m.complexityBand.name), ("ce", .natural m.efferent),
      ("ca", .natural m.afferent), ("abstractness", .real m.abstractness),
      ("instability", .real m.instability), ("distance", .real m.distance),
      ("quality", .text m.quality.name)]

/-- The assessment with the metrics of its entities. -/
def Assessment.toJson (assessment : Assessment) : Json :=
  .object
    [("entities", .list (assessment.entities.map Metrics.toJson)),
      ("total_entities", .natural assessment.totalEntities),
      ("total_lines", .natural assessment.totalLines),
      ("avg_complexity", .real assessment.averageComplexity),
      ("avg_distance", .real assessment.averageDistance),
      ("abstract_count", .natural assessment.abstractCount),
      ("interface_count", .natural assessment.interfaceCount)]

/-- The relationship. -/
def Edge.toJson (edge : Edge) : Json :=
  .object [("source", .text edge.source), ("target", .text edge.target),
    ("kind", .text edge.kind.name)]

/-- The entities of the corpus. -/
def Corpus.toJson (corpus : Corpus) : Json :=
  .object [("entities", .list (corpus.entities.map Entity.toJson))]

mutual

/-- The tree with its children inside. -/
def FolderTree.toJson : FolderTree → Json
  | .node name path isFile children =>
    .object [("name", .text name), ("path", .text path), ("is_file", .bool isFile),
      ("children", .list (FolderTree.listToJson children))]

/-- Several trees, each with its children inside. -/
def FolderTree.listToJson : List FolderTree → List Json
  | [] => []
  | tree :: rest => FolderTree.toJson tree :: FolderTree.listToJson rest

end

namespace Render

/-- The document of a selection: its folder if it has one, its assessment, its entities and the
relationships listed with them. -/
def document (folder : Option String) (entities : List Entity) (edges : List Edge) : Json :=
  .object ((folder.toList.map fun name => ("folder", Json.text name)) ++
    [("summary", (Assessment.ofEntities entities).toJson),
      ("entities", .list (entities.map Entity.toJson)),
      ("relationships", .list (edges.map Edge.toJson))])

end Render

end ClassAtlas
