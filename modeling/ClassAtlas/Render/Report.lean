import ClassAtlas.Metrics
import ClassAtlas.Decimal.Fixed
import ClassAtlas.Text.Column

/-!
# The text report

An assessment for readers: an overview, a table of all entities, the quality bands and the worst
entities.
-/

namespace ClassAtlas.Render

open ClassAtlas.Text

/-- A text in a column, cut to its width in bytes and padded to its width in characters. -/
def textColumn (width : Nat) (text : String) : String :=
  String.ofList (padRight width (fitColumn width text.toList))

/-- A count at the right of a column. -/
def countColumn (width : Nat) (count : Nat) : String :=
  String.ofList (padLeft width (toString count).toList)

/-- A number at the right of a column, with a fixed number of places. -/
def realColumn (width places : Nat) (x : Float) : String :=
  String.ofList (padLeft width (Decimal.fixed places x))

/-- The overview at the head of a report. -/
def overview (assessment : Assessment) : String :=
  "── OVERVIEW ─────────────────────────────────────────────────────────\n" ++
    "  Entities:          " ++ countColumn 6 assessment.totalEntities ++ "\n" ++
    "  Abstract classes:  " ++ countColumn 6 assessment.abstractCount ++ "\n" ++
    "  Interfaces:        " ++ countColumn 6 assessment.interfaceCount ++ "\n" ++
    "  Total Lines:       " ++ countColumn 6 assessment.totalLines ++ "\n" ++
    "  Avg Complexity:    " ++ realColumn 6 1 assessment.averageComplexity ++ "\n" ++
    "  Avg Distance:      " ++ realColumn 6 2 assessment.averageDistance ++ "\n\n"

/-- The row of one entity. -/
def reportRow (m : Metrics) : String :=
  "  " ++ textColumn 22 m.name ++ " " ++ countColumn 6 m.lines ++ " " ++
    countColumn 5 m.complexity ++
    " " ++ countColumn 3 m.efferent ++ " " ++ countColumn 3 m.afferent ++ " " ++
    realColumn 5 2 m.instability ++ " " ++ realColumn 5 2 m.abstractness ++ " " ++
    realColumn 5 2 m.distance ++ "  " ++ m.quality.name ++ "\n"

/-- The table of all entities and its legend. -/
def entityTable (assessment : Assessment) : String :=
  "── ENTITY METRICS ───────────────────────────────────────────────────\n" ++
    "  Entity                    LoC    CC  Ce  Ca     I     A     D  Quality\n" ++
    "  ─────────────────────────────────────────────────────────────────\n" ++
    String.join (assessment.entities.map reportRow) ++ "\n" ++
    "  CC: complexity (0-5 low, 6-10 moderate, 11+ high) | I: instability\n" ++
    "  A: abstractness | D: distance from the main sequence\n\n"

/-- The number of entities in each quality band. -/
def bandTable (assessment : Assessment) : String :=
  "── QUALITY ──────────────────────────────────────────────────────────\n" ++
    String.join (QualityBand.all.map fun band =>
      "  " ++ textColumn 12 band.name ++ " " ++ countColumn 6 (assessment.countIn band) ++ "\n")

/-- The first entity is listed before the second: it is further from the main sequence, or as far
and not later by name. -/
def listedBefore (a b : Metrics) : Bool :=
  b.distance < a.distance || (a.distance == b.distance && a.name ≤ b.name)

/-- How many of the worst entities are listed. -/
def worstCount : Nat := 10

/-- The problematic entities furthest from the main sequence. -/
def worst (assessment : Assessment) : String :=
  match (assessment.entities.filter (·.quality = .problematic)).mergeSort listedBefore with
  | [] => ""
  | entities =>
    "\n  ⚠ Furthest from the main sequence:\n" ++
      String.join ((entities.take worstCount).map fun m =>
        "    " ++ textColumn 40 m.path ++ " D=" ++ realColumn 0 2 m.distance ++ "\n")

/-- The whole report. -/
def report (assessment : Assessment) : String :=
  "╔══════════════════════════════════════════════════════════════════╗\n" ++
    "║                    ARCHITECTURE METRICS REPORT                   ║\n" ++
    "╚══════════════════════════════════════════════════════════════════╝\n\n" ++
    overview assessment ++ entityTable assessment ++ bandTable assessment ++ worst assessment

end ClassAtlas.Render
