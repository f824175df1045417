import ClassAtlas.Render.Diagram
import ClassAtlas.Render.Document
import ClassAtlas.Render.Report
import ClassAtlas.Render.Table

/-!
# Artifacts

What can be made of a corpus. A diagram always shows the whole corpus; the other artifacts can be
limited to a folder.
-/

namespace ClassAtlas.Render

/-- The kinds of artifacts. -/
inductive Format
  | diagram
  | document
  | table
  | report
  deriving DecidableEq, Repr

/-- The name by which a user asks for a kind of artifact. -/
def Format.name : Format → String
  | .diagram => "plantuml"
  | .document => "json"
  | .table => "toon"
  | .report => "report"

/-- The kind of artifact with a given name. -/
def Format.ofName? (name : String) : Option Format :=
  [Format.diagram, .document, .table, .report].find? (·.name = name)

/-- The relationships listed with a selection of entities: those that touch one of them. -/
def listedEdges (selected : List Entity) (edges : List Edge) : List Edge :=
  let names := NameSet.ofList (selected.map (·.name))
  edges.filter fun edge => edge.source ∈ names || edge.target ∈ names

/-- The artifact of a corpus. -/
def artifact (format : Format) (folder : Option String) (corpus : Corpus) : String :=
  let edges := corpus.relationships
  let selected := corpus.selection folder
  match format with
  | .diagram => diagram corpus edges
  | .report => report (Assessment.ofEntities selected)
  | .table => tableListing (Assessment.ofEntities selected) (listedEdges selected edges) folder
  | .document => (document folder selected (listedEdges selected edges)).pretty

end ClassAtlas.Render
