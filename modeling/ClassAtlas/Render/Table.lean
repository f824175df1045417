import ClassAtlas.Metrics
import ClassAtlas.Relationship
import ClassAtlas.Decimal.Shortest

/-!
# The table listing

A compact listing for other programs: a few lines of overview, then one table of entities and one of
relationships. A table names its columns once, and its rows hold values separated by commas. A text
is quoted when it could be taken for something else.
-/

namespace ClassAtlas.Render

/-- A character that forces quotes: it has a meaning of its own in a listing. -/
def isStructural (c : Char) : Bool :=
  c ∈ ['[', ']', '{', '}', ':', '-', ',', ' ', '\t', '\n', '\r']

/-- A character that a number may hold after its first digit. -/
def isNumeric (c : Char) : Bool :=
  c.isDigit || c = '.' || c = 'e' || c = 'E' || c = '+' || c = '-'

/-- The text starts with a digit, not with a zero before another digit, and goes on like a
number. -/
def isNumberBody : List Char → Bool
  | '0' :: d :: rest => !d.isDigit && isNumeric d && rest.all isNumeric
  | d :: rest => d.isDigit && rest.all isNumeric
  | [] => false

/-- The text reads like a number. -/
def isNumberLike : List Char → Bool
  | '-' :: rest => isNumberBody rest
  | text => isNumberBody text

/-- The text must be quoted to be read as a text. -/
def needsQuotes (text : List Char) : Bool :=
  text.isEmpty || text = "null".toList || text = "true".toList || text = "false".toList ||
    isNumberLike text || text.any isStructural

/-- The characters that stand for one character inside quotes. -/
def cellChar (c : Char) : List Char :=
  if c = '\n' then ['\\', 'n']
  else if c = '\r' then ['\\', 'r']
  else if c = '\t' then ['\\', 't']
  else if c = '"' then ['\\', '"']
  else if c = '\\' then ['\\', '\\']
  else [c]

/-- A text as a value of a listing. -/
def textCell (text : String) : String :=
  if needsQuotes text.toList then
    "\"" ++ String.ofList (text.toList.flatMap cellChar) ++ "\""
  else text

/-- A whole number as a value of a listing, with a zero after the point. What does not fit into a
signed word of 64 bits is replaced by the nearest number that does. -/
def wholeCell (n : Int) : String :=
  toString (max Int64.minValue.toInt (min n Int64.maxValue.toInt)) ++ ".0"

/-- A number as a value of a listing: all digits of a whole number, else the shortest text. What is
not finite has no value. -/
def realCell (x : Float) : String :=
  match Decimal.decode x with
  | .finite negative m =>
    match (Decimal.Decoded.finite negative m).whole? with
    | some n => wholeCell n
    | none => Decimal.shortest .plain x
  | _ => "null"

/-- The number rounded to two places, halves away from zero. -/
def roundTwo (x : Float) : Float :=
  (x * 100.0).round / 100.0

/-- A line of the overview. -/
def entry (key value : String) : String :=
  key ++ ": " ++ value

/-- The folder that a listing is limited to. The top has no name and is shown as a slash. -/
def scopeName (folder : String) : String :=
  if folder = "" then "/" else folder

/-- The lines of the overview. -/
def overviewLines (assessment : Assessment) (edges : List Edge) (scope : Option String) :
    List String :=
  [entry "_type" "corpus_overview"] ++
    (scope.toList.map fun folder => entry "folder" (textCell (scopeName folder))) ++
    [entry "entities" (toString assessment.totalEntities),
      entry "lines" (toString assessment.totalLines),
      entry "avg_complexity" (realCell (roundTwo assessment.averageComplexity)),
      entry "avg_distance" (realCell (roundTwo assessment.averageDistance))] ++
    (if 0 < assessment.abstractCount then [entry "abstract" (toString assessment.abstractCount)]
      else []) ++
    (if 0 < assessment.interfaceCount then [entry "interfaces" (toString assessment.interfaceCount)]
      else []) ++
    [entry "quality_breakdown" (textCell
        ("good:" ++ toString (assessment.countIn .good) ++
          ",warning:" ++ toString (assessment.countIn .warning) ++
          ",problematic:" ++ toString (assessment.countIn .problematic))),
      entry "relationships" (toString edges.length)]

/-- A table: its name, the number of its rows, its columns, and one line a row. -/
def table (name : String) (columns : List String) (rows : List (List String)) : String :=
  name ++ "[" ++ toString rows.length ++ "]\x7b" ++ String.intercalate "," columns ++ "\x7d:" ++
    String.join (rows.map fun row => "\n  " ++ String.intercalate "," row)

/-- The columns of the entity table. -/
def entityColumns : List String :=
  ["name", "path", "kind", "loc", "cc", "band", "ce", "ca", "i", "a", "d", "quality"]

/-- The row of an entity. -/
def entityRow (m : Metrics) : List String :=
  [textCell m.name, textCell m.path, textCell m.kind.name, toString m.lines, toString m.complexity,
    textCell m.complexityBand.name, toString m.efferent, toString m.afferent,
    realCell (roundTwo m.instability), realCell m.abstractness, realCell (roundTwo m.distance),
    textCell m.quality.name]

/-- The columns of the relationship table. -/
def edgeColumns : List String :=
  ["source", "kind", "target"]

/-- The row of a relationship. -/
def edgeRow (edge : Edge) : List String :=
  [textCell edge.source, textCell edge.kind.name, textCell edge.target]

/-- A table, or nothing if it has no rows. -/
def tableUnlessEmpty (name : String) (columns : List String) (rows : List (List String)) :
    List String :=
  if rows.isEmpty then [] else [table name columns rows]

/-- The whole listing. The overview runs up to the dividing line without a line end. -/
def tableListing (assessment : Assessment) (edges : List Edge) (scope : Option String) : String :=
  String.intercalate "\n" (overviewLines assessment edges scope) ++ "---\n" ++
    String.intercalate "\n"
      (tableUnlessEmpty "entities" entityColumns (assessment.entities.map entityRow) ++
        tableUnlessEmpty "relationships" edgeColumns (edges.map edgeRow))

end ClassAtlas.Render
