import ClassAtlas.Proofs.TableCells

/-!
# What a table listing tells

A table listing is a text of lines. Its overview ends with the line that counts the relationships,
the first that starts with the letter of that word. After it come the tables: a line with the name
of the table, and one indented line for each row. So the rows of both tables are found in the text,
and their values in the rows. Two assessments with the same listing show the same entities and the
same relationships, whatever characters their names and paths hold.
-/

namespace ClassAtlas

/-- The kinds of types have different names. -/
theorem TypeKind.name_injective : Function.Injective name := by
  intro kind other h
  cases kind <;> cases other <;> first | rfl | exact absurd h (by decide)

/-- The bands of complexity have different names. -/
theorem Source.ComplexityBand.name_injective : Function.Injective name := by
  intro band other h
  cases band <;> cases other <;> first | rfl | exact absurd h (by decide)

/-- The bands of quality have different names. -/
theorem QualityBand.name_injective : Function.Injective name := by
  intro band other h
  cases band <;> cases other <;> first | rfl | exact absurd h (by decide)

/-- A kind of relationships is found by its name. -/
theorem RelationshipKind.ofName?_name (kind : RelationshipKind) :
    ofName? kind.name = some kind := by
  cases kind <;> rfl

end ClassAtlas

namespace ClassAtlas.Render

/-! ## Lines -/

/-- The lines of a text. -/
def linesOf (text : String) : List (List Char) :=
  text.toList.splitOn '\n'

/-- The line above the rows of a table. -/
def headerLine (name : String) (columns : List String) (rows : List (List String)) : String :=
  name ++ "[" ++ toString rows.length ++ "]\x7b" ++ String.intercalate "," columns ++ "\x7d:"

/-- The line of a row. -/
def rowLine (row : List String) : List Char :=
  ' ' :: ' ' :: (String.intercalate "," row).toList

/-- The lines of a table, none if it has no rows. -/
def tableLines (name : String) (columns : List String) (rows : List (List String)) :
    List (List Char) :=
  if rows.isEmpty then [] else (headerLine name columns rows).toList :: rows.map rowLine

/-- A character of joined pieces is the separator or one of a piece. -/
theorem mem_intercalate {sep c : Char} {pieces : List (List Char)}
    (h : c ∈ [sep].intercalate pieces) :
    c = sep ∨ ∃ piece ∈ pieces, c ∈ piece := by
  have hne : pieces ≠ [] := by
    rintro rfl
    simp at h
  have hmem : c ∈ sep :: [sep].intercalate pieces := List.mem_cons_of_mem sep h
  rw [cons_intercalate hne] at hmem
  obtain ⟨piece, hpiece, hc⟩ := List.mem_flatMap.mp hmem
  rcases List.mem_cons.mp hc with rfl | hc
  · exact .inl rfl
  · exact .inr ⟨piece, hpiece, hc⟩

/-- A table line by line: its header and its rows. -/
theorem feed_cons_table (name : String) (columns : List String) (rows : List (List String)) :
    '\n' :: (table name columns rows).toList =
      ((headerLine name columns rows).toList :: rows.map rowLine).flatMap ('\n' :: ·) := by
  have hrow (row : List String) :
      ("\n  " ++ String.intercalate "," row).toList = '\n' :: rowLine row := by
    rw [String.toList_append]
    rfl
  rw [table, ← headerLine, String.toList_append, String.toList_join, List.flatMap_cons,
    List.flatMap_map, List.flatMap_map]
  simp only [hrow, List.cons_append]

/-- A table that may be missing, line by line. -/
theorem flatMap_tableUnlessEmpty (name : String) (columns : List String)
    (rows : List (List String)) :
    (tableUnlessEmpty name columns rows).flatMap ('\n' :: String.toList ·) =
      (tableLines name columns rows).flatMap ('\n' :: ·) := by
  unfold tableUnlessEmpty tableLines
  split
  · rfl
  · rw [List.flatMap_singleton, feed_cons_table]

/-- Pieces that are joined by line feeds have one before each if one stands in front. -/
theorem feed_cons_intercalate {pieces : List String} (hne : pieces ≠ []) :
    '\n' :: (String.intercalate "\n" pieces).toList = pieces.flatMap ('\n' :: String.toList ·) := by
  have hsep : "\n".toList = ['\n'] := rfl
  rw [String.toList_intercalate, hsep, cons_intercalate (by simpa using hne), List.flatMap_map]

/-- The tables of a listing line by line. If there is none, an empty line remains. -/
theorem exists_feed_cons_tables (tables : List String) :
    ∃ tail, (tail = [] ∨ tail = [[]]) ∧
      '\n' :: (String.intercalate "\n" tables).toList =
        tables.flatMap ('\n' :: String.toList ·) ++ tail.flatMap ('\n' :: ·) := by
  by_cases htables : tables = []
  · exact ⟨[[]], .inr rfl, by rw [htables]; rfl⟩
  · exact ⟨[], .inl rfl, by rw [feed_cons_intercalate htables, List.flatMap_nil, List.append_nil]⟩

/-! ## The overview -/

/-- The keys of the overview before the last one. -/
def overviewKeys : List String :=
  ["_type", "folder", "entities", "lines", "avg_complexity", "avg_distance", "abstract",
    "interfaces", "quality_breakdown"]

/-- The keys before the last are single lines, and none starts like the last. -/
theorem overviewKeys_spec : ∀ key ∈ overviewKeys,
    '\n' ∉ key.toList ∧ key.toList.head?.isSome = true ∧ key.toList.head? ≠ some 'r' := by
  decide

/-- A line of the overview, character by character. -/
theorem toList_entry (key value : String) :
    (entry key value).toList = key.toList ++ ':' :: ' ' :: value.toList := by
  simp [entry]

/-- A line of the overview does not look like the last one, and is one line if its value is. -/
theorem entry_spec {key value : String} (hkey : key ∈ overviewKeys) (hvalue : '\n' ∉ value.toList) :
    '\n' ∉ (entry key value).toList ∧ (entry key value).toList.head? ≠ some 'r' := by
  obtain ⟨hline, hsome, hhead⟩ := overviewKeys_spec key hkey
  rw [toList_entry]
  refine ⟨by simp [hline, hvalue], ?_⟩
  obtain ⟨c, hc⟩ := Option.isSome_iff_exists.mp hsome
  rw [List.head?_append, hc]
  rwa [hc] at hhead

/-- The overview ends with the number of relationships, and no other line starts like that one. -/
theorem exists_overviewLines_eq (assessment : Assessment) (edges : List Edge)
    (scope : Option String) :
    ∃ front, overviewLines assessment edges scope =
      front ++ [entry "relationships" (toString edges.length)] ∧
      ∀ line ∈ front, '\n' ∉ line.toList ∧ line.toList.head? ≠ some 'r' := by
  refine ⟨_, List.append_assoc _ [_] [_] |>.symm, ?_⟩
  have hnumber (n : Nat) : '\n' ∉ (toString n).toList := (shows_toString n).one_line
  have hreal (x : Float) : '\n' ∉ (realCell x).toList := (shows_realCell x).one_line
  intro line hline
  -- One case for each line that the overview may have, those that may be missing included.
  simp only [List.mem_append, List.mem_cons, List.not_mem_nil, or_false, List.mem_map,
    Option.mem_toList, List.mem_ite_nil_right] at hline
  rcases hline with
    ((((rfl | ⟨folder, -, rfl⟩) | rfl | rfl | rfl | rfl) | ⟨-, rfl⟩) | ⟨-, rfl⟩) | rfl
  · exact entry_spec (by decide) (by decide)
  · exact entry_spec (by decide) (feed_not_mem_textCell _)
  · exact entry_spec (by decide) (hnumber _)
  · exact entry_spec (by decide) (hnumber _)
  · exact entry_spec (by decide) (hreal _)
  · exact entry_spec (by decide) (hreal _)
  · exact entry_spec (by decide) (hnumber _)
  · exact entry_spec (by decide) (hnumber _)
  · exact entry_spec (by decide) (feed_not_mem_textCell _)

/-! ## The rows of a table -/

/-- The lines after the first one that starts with the given character. -/
def linesAfter (mark : Char) (lines : List (List Char)) : List (List Char) :=
  (lines.dropWhile fun line => line.head? ≠ some mark).drop 1

/-- The indented lines at the start. -/
def leadingRows (lines : List (List Char)) : List (List Char) :=
  lines.takeWhile fun line => line.head? = some ' '

section Tables

variable {mark : Char} {front rest : List (List Char)}

/-- The lines after the first one that starts with the mark are found. -/
theorem linesAfter_append {line : List Char} (hfront : ∀ line ∈ front, line.head? ≠ some mark)
    (hline : line.head? = some mark) : linesAfter mark (front ++ line :: rest) = rest := by
  have hskip : ∀ line ∈ front, decide (line.head? ≠ some mark) = true :=
    fun line h => decide_eq_true (hfront line h)
  rw [linesAfter, List.dropWhile_append_of_pos hskip,
    List.dropWhile_cons_of_neg (by simpa using hline), List.drop_one, List.tail_cons]

/-- Nothing is found if no line starts with the mark. -/
theorem linesAfter_of_forall (hfront : ∀ line ∈ front, line.head? ≠ some mark) :
    linesAfter mark front = [] := by
  have hskip : front.dropWhile (fun line => line.head? ≠ some mark) = [] :=
    List.dropWhile_eq_nil_iff.mpr fun line h => decide_eq_true (hfront line h)
  rw [linesAfter, hskip, List.drop_nil]

/-- Rows are indented. -/
theorem head?_rowLine (row : List String) : (rowLine row).head? = some ' ' := rfl

/-- The rows of a table end where a line is not indented. -/
theorem leadingRows_append (rows : List (List String))
    (hrest : ∀ line ∈ rest.head?, line.head? ≠ some ' ') :
    leadingRows (rows.map rowLine ++ rest) = rows.map rowLine := by
  have hrows : ∀ line ∈ rows.map rowLine, decide (line.head? = some ' ') = true := by
    intro line hline
    obtain ⟨row, -, rfl⟩ := List.mem_map.mp hline
    exact decide_eq_true (head?_rowLine row)
  have hstop : rest.takeWhile (fun line => line.head? = some ' ') = [] := by
    cases rest with
    | nil => rfl
    | cons line rest => exact List.takeWhile_cons_of_neg (by simpa using hrest line rfl)
  rw [leadingRows, List.takeWhile_append_of_pos hrows, hstop, List.append_nil]

/-- The header of a table starts with its name. -/
theorem head?_headerLine {name : String} (columns : List String) (rows : List (List String))
    (hname : name.toList.head? = some mark) :
    (headerLine name columns rows).toList.head? = some mark := by
  simp [headerLine, List.head?_append, hname]

/-- A table does not start with an indented line. -/
theorem head?_of_head?_tableLines_append {name : String} (columns : List String)
    (rows : List (List String)) (hname : name.toList.head? = some mark) (hmark : mark ≠ ' ')
    (hrest : ∀ line ∈ rest.head?, line.head? ≠ some ' ') :
    ∀ line ∈ (tableLines name columns rows ++ rest).head?, line.head? ≠ some ' ' := by
  unfold tableLines
  split
  · exact hrest
  · rintro line hline
    obtain rfl := Option.some.inj hline
    rw [head?_headerLine columns rows hname]
    simpa using hmark

/-- Only the first line of a table is not indented. -/
theorem head?_of_mem_tableLines {name : String} {columns : List String} {rows : List (List String)}
    {line : List Char} (hline : line ∈ tableLines name columns rows)
    (hname : name.toList.head? = some mark) :
    line.head? = some mark ∨ line.head? = some ' ' := by
  unfold tableLines at hline
  split at hline
  · cases hline
  · rcases List.mem_cons.mp hline with rfl | hline
    · exact .inl (head?_headerLine columns rows hname)
    · obtain ⟨row, -, rfl⟩ := List.mem_map.mp hline
      exact .inr (head?_rowLine row)

/-- The rows of a table are the indented lines after the line that starts with its name. -/
theorem leadingRows_linesAfter {name : String} (columns : List String) (rows : List (List String))
    (hname : name.toList.head? = some mark) (hfront : ∀ line ∈ front, line.head? ≠ some mark)
    (hrest : ∀ line ∈ rest, line.head? ≠ some mark)
    (hindent : ∀ line ∈ rest.head?, line.head? ≠ some ' ') :
    leadingRows (linesAfter mark (front ++ (tableLines name columns rows ++ rest))) =
      rows.map rowLine := by
  by_cases hrows : rows = []
  · have hnone : ∀ line ∈ front ++ rest, line.head? ≠ some mark := by
      intro line hline
      exact (List.mem_append.mp hline).elim (hfront line) (hrest line)
    subst hrows
    rw [tableLines, List.isEmpty_nil, if_pos rfl, List.nil_append, linesAfter_of_forall hnone]
    rfl
  · rw [tableLines, if_neg (by simpa using hrows), List.cons_append,
      linesAfter_append hfront (head?_headerLine columns rows hname),
      leadingRows_append rows hindent]

end Tables

/-! ## The whole listing -/

/-- Every cell of an entity is a single line. -/
theorem feed_not_mem_entityRow (m : Metrics) : ∀ cell ∈ entityRow m, '\n' ∉ cell.toList := by
  have htext := feed_not_mem_textCell
  have hnumber (n : Nat) := (shows_toString n).one_line
  have hreal (x : Float) := (shows_realCell x).one_line
  simp only [entityRow, List.forall_mem_cons]
  exact ⟨htext _, htext _, htext _, hnumber _, hnumber _, htext _, hnumber _, hnumber _, hreal _,
    hreal _, hreal _, htext _, by simp⟩

/-- Every cell of a relationship is a single line. -/
theorem feed_not_mem_edgeRow (edge : Edge) : ∀ cell ∈ edgeRow edge, '\n' ∉ cell.toList := by
  simp [edgeRow, feed_not_mem_textCell]

/-- The lines of a table are single lines if its name, its columns and its cells are. -/
theorem feed_not_mem_tableLines {name : String} {columns : List String} {rows : List (List String)}
    (hname : '\n' ∉ name.toList) (hcolumns : '\n' ∉ (String.intercalate "," columns).toList)
    (hrows : ∀ row ∈ rows, ∀ cell ∈ row, '\n' ∉ cell.toList) :
    ∀ line ∈ tableLines name columns rows, '\n' ∉ line := by
  intro line hline
  unfold tableLines at hline
  split at hline
  · cases hline
  · rcases List.mem_cons.mp hline with rfl | hline
    · have hnumber := (shows_toString rows.length).one_line
      simp only [headerLine, String.toList_append, List.mem_append, not_or]
      exact ⟨⟨⟨⟨⟨hname, by decide⟩, hnumber⟩, by decide⟩, hcolumns⟩, by decide⟩
    · obtain ⟨row, hrow, rfl⟩ := List.mem_map.mp hline
      intro hmem
      simp only [rowLine, List.mem_cons, String.toList_intercalate] at hmem
      rcases hmem with h | h | h
      · cases h
      · cases h
      · rcases mem_intercalate h with h | ⟨piece, hpiece, hfeed⟩
        · cases h
        · obtain ⟨cell, hcell, rfl⟩ := List.mem_map.mp hpiece
          exact hrows row hrow cell hcell hfeed

/-- The lines of the table of entities. -/
def entityLines (entities : List Metrics) : List (List Char) :=
  tableLines "entities" entityColumns (entities.map entityRow)

/-- The lines of the table of relationships. -/
def edgeLines (edges : List Edge) : List (List Char) :=
  tableLines "relationships" edgeColumns (edges.map edgeRow)

/-- The lines of the table of entities are single lines. -/
theorem feed_not_mem_entityLines (entities : List Metrics) :
    ∀ line ∈ entityLines entities, '\n' ∉ line := by
  refine feed_not_mem_tableLines (by decide) (by decide) fun row hrow => ?_
  obtain ⟨m, -, rfl⟩ := List.mem_map.mp hrow
  exact feed_not_mem_entityRow m

/-- The lines of the table of relationships are single lines. -/
theorem feed_not_mem_edgeLines (edges : List Edge) : ∀ line ∈ edgeLines edges, '\n' ∉ line := by
  refine feed_not_mem_tableLines (by decide) (by decide) fun row hrow => ?_
  obtain ⟨edge, -, rfl⟩ := List.mem_map.mp hrow
  exact feed_not_mem_edgeRow edge

/-- The text of a listing line by line, where the last line of the overview runs up to the dividing
line. If there is no table, an empty line remains. -/
theorem exists_feed_cons_tableListing {assessment : Assessment} {edges : List Edge}
    {scope : Option String} {front : List String} {last : String}
    (hoverview : overviewLines assessment edges scope = front ++ [last]) :
    ∃ tail, (tail = [] ∨ tail = [[]]) ∧
      '\n' :: (tableListing assessment edges scope).toList =
        (front.map String.toList ++ (last.toList ++ ['-', '-', '-']) ::
          (entityLines assessment.entities ++ (edgeLines edges ++ tail))).flatMap ('\n' :: ·) := by
  obtain ⟨tail, htail, htables⟩ := exists_feed_cons_tables
    (tableUnlessEmpty "entities" entityColumns (assessment.entities.map entityRow) ++
      tableUnlessEmpty "relationships" edgeColumns (edges.map edgeRow))
  have hdivider : "---\n".toList = ['-', '-', '-'] ++ ['\n'] := rfl
  rw [List.flatMap_append, flatMap_tableUnlessEmpty, flatMap_tableUnlessEmpty] at htables
  refine ⟨tail, htail, ?_⟩
  rw [tableListing, hoverview, String.toList_append, String.toList_append, hdivider,
    ← List.cons_append, ← List.cons_append, feed_cons_intercalate (by simp), ← List.append_assoc,
    List.append_assoc, List.singleton_append, htables]
  simp [List.flatMap_append, List.flatMap_map, entityLines, edgeLines]

/-- The lines of a listing: those of the overview, of which only the last one starts like the word
for relationships, then the two tables, and an empty line if there is no table. -/
theorem exists_linesOf_tableListing (assessment : Assessment) (edges : List Edge)
    (scope : Option String) :
    ∃ front divider tail, (∀ line ∈ front, line.head? ≠ some 'r') ∧ divider.head? = some 'r' ∧
      (tail = [] ∨ tail = [[]]) ∧
      linesOf (tableListing assessment edges scope) =
        front ++ divider :: (entityLines assessment.entities ++ (edgeLines edges ++ tail)) := by
  obtain ⟨front, hoverview, hfront⟩ := exists_overviewLines_eq assessment edges scope
  obtain ⟨tail, htail, htext⟩ := exists_feed_cons_tableListing hoverview
  obtain ⟨divider, hdivider⟩ : ∃ divider,
      divider = (entry "relationships" (toString edges.length)).toList ++ ['-', '-', '-'] :=
        ⟨_, rfl⟩
  rw [← hdivider] at htext
  refine ⟨front.map String.toList, divider, tail, fun line hline => ?_, ?_, htail, ?_⟩
  · obtain ⟨text, htext, rfl⟩ := List.mem_map.mp hline
    exact (hfront text htext).2
  · rw [hdivider, toList_entry]
    rfl
  · rw [← cons_intercalate (by simp), List.cons.injEq] at htext
    rw [linesOf, htext.2]
    refine List.splitOn_intercalate '\n' (fun line hline => ?_) (by simp)
    rw [List.mem_append, List.mem_cons, List.mem_append, List.mem_append] at hline
    rcases hline with hline | rfl | hline | hline | hline
    · obtain ⟨text, htext, rfl⟩ := List.mem_map.mp hline
      exact (hfront text htext).1
    · have hnumber := (shows_toString edges.length).one_line
      rw [hdivider, toList_entry]
      simp only [List.mem_append, List.mem_cons, not_or]
      exact ⟨⟨by decide, by decide, by decide, hnumber⟩, by decide, by decide, by decide, by simp⟩
    · exact feed_not_mem_entityLines _ line hline
    · exact feed_not_mem_edgeLines _ line hline
    · rcases htail with rfl | rfl
      · cases hline
      · rw [List.mem_singleton.mp hline]
        simp

/-- The rows of both tables are found in the text of a listing. -/
theorem rows_of_tableListing (assessment : Assessment) (edges : List Edge) (scope : Option String) :
    leadingRows (linesAfter 'e' (linesAfter 'r' (linesOf (tableListing assessment edges scope)))) =
        (assessment.entities.map entityRow).map rowLine ∧
      leadingRows
        (linesAfter 'r' (linesAfter 'r' (linesOf (tableListing assessment edges scope)))) =
        (edges.map edgeRow).map rowLine := by
  obtain ⟨front, divider, tail, hfront, hdivider, htail, hlines⟩ :=
    exists_linesOf_tableListing assessment edges scope
  rw [hlines, linesAfter_append hfront hdivider]
  have hentities : ∀ line ∈ entityLines assessment.entities, line.head? = some 'e' ∨
      line.head? = some ' ' :=
    fun line hline => head?_of_mem_tableLines hline rfl
  have hedges : ∀ line ∈ edgeLines edges, line.head? = some 'r' ∨ line.head? = some ' ' :=
    fun line hline => head?_of_mem_tableLines hline rfl
  have htail : ∀ line ∈ tail, line.head? = none := by
    rcases htail with rfl | rfl <;> simp
  have hindent : ∀ line ∈ tail.head?, line.head? ≠ some ' ' := by
    intro line hline
    rw [htail line (List.mem_of_mem_head? hline)]
    simp
  constructor
  · refine @leadingRows_linesAfter 'e' [] _ _ entityColumns _ rfl (by simp)
      (fun line hline => ?_) ?_
    · rcases List.mem_append.mp hline with hline | hline
      · rcases hedges line hline with h | h <;> simp [h]
      · simp [htail line hline]
    · exact head?_of_head?_tableLines_append edgeColumns _ rfl (by decide) hindent
  · refine leadingRows_linesAfter edgeColumns _ rfl (fun line hline => ?_)
      (fun line hline => ?_) hindent
    · rcases hentities line hline with h | h <;> simp [h]
    · simp [htail line hline]

/-! ## What is shown -/

/-- What the table of entities shows of a type, apart from its ratios. -/
def shown (m : Metrics) :
    String × String × TypeKind × Nat × Nat × Source.ComplexityBand × Nat × Nat × QualityBand :=
  (m.name, m.path, m.kind, m.lines, m.complexity, m.complexityBand, m.efferent,
    m.afferent, m.quality)

/-- The values in the row of an entity. -/
def entityValues (m : Metrics) : List String :=
  [m.name, m.path, m.kind.name, toString m.lines, toString m.complexity, m.complexityBand.name,
    toString m.efferent, toString m.afferent, realCell (roundTwo m.instability),
    realCell m.abstractness, realCell (roundTwo m.distance),
    m.quality.name]

/-- The values in the row of a relationship. -/
def edgeValues (edge : Edge) : List String :=
  [edge.source, edge.kind.name, edge.target]

/-- The text does not start with a quote, so that it is not taken for a quoted one. -/
def StartsUnquoted (text : String) : Prop :=
  text.toList.head? ≠ some '"'

/-- No name, path or end of a relationship starts with a quote. -/
structure IsListable (assessment : Assessment) (edges : List Edge) : Prop where
  entities : ∀ m ∈ assessment.entities, StartsUnquoted m.name ∧ StartsUnquoted m.path
  edges : ∀ edge ∈ edges, StartsUnquoted edge.source ∧ StartsUnquoted edge.target

/-- The row of an entity shows its values, if neither its name nor its path starts with a quote. -/
theorem entityRow_shows {m : Metrics} (hname : StartsUnquoted m.name)
    (hpath : StartsUnquoted m.path) :
    List.Forall₂ Shows (entityRow m) (entityValues m) := by
  have hkind : Shows (textCell m.kind.name) m.kind.name :=
    shows_textCell (by cases m.kind <;> decide)
  have hband : Shows (textCell m.complexityBand.name) m.complexityBand.name :=
    shows_textCell (by cases m.complexityBand <;> decide)
  have hquality : Shows (textCell m.quality.name) m.quality.name :=
    shows_textCell (by cases m.quality <;> decide)
  exact .cons (shows_textCell hname) <| .cons (shows_textCell hpath) <| .cons hkind <|
    .cons (shows_toString _) <| .cons (shows_toString _) <| .cons hband <|
    .cons (shows_toString _) <| .cons (shows_toString _) <| .cons (shows_realCell _) <|
    .cons (shows_realCell _) <| .cons (shows_realCell _) <| .cons hquality .nil

/-- The row of a relationship shows its values, if neither end starts with a quote. -/
theorem edgeRow_shows {edge : Edge} (hsource : StartsUnquoted edge.source)
    (htarget : StartsUnquoted edge.target) :
    List.Forall₂ Shows (edgeRow edge) (edgeValues edge) := by
  have hkind : Shows (textCell edge.kind.name) edge.kind.name :=
    shows_textCell (by cases edge.kind <;> decide)
  exact .cons (shows_textCell hsource) <| .cons hkind <| .cons (shows_textCell htarget) .nil

/-- The values of a row are read from its line. -/
theorem readRow?_rowLine {row values : List String} (h : List.Forall₂ Shows row values)
    (hne : row ≠ []) : readRow? row.length (',' :: (rowLine row).drop 2) = some values :=
  readRow?_intercalate h hne

/-- The digits of a number tell the number. -/
theorem eq_of_toString_eq {n other : Nat} (h : toString n = toString other) : n = other := by
  have hdigits : Nat.toDigits 10 n = Nat.toDigits 10 other := by
    simpa using congrArg String.toList h
  rw [← @Nat.ofDigitChars_toDigits 10 n (by decide) (by decide), hdigits,
    Nat.ofDigitChars_toDigits (by decide) (by decide)]

/-- The values in its row tell what is shown of an entity. -/
theorem shown_eq_of_entityValues_eq {m other : Metrics} (h : entityValues m = entityValues other) :
    shown m = shown other := by
  simp only [entityValues, List.cons.injEq] at h
  obtain ⟨hname, hpath, hkind, hlines, hcomplexity, hband, hefferent, hafferent, -, -, -,
    hquality, -⟩ := h
  rw [shown, shown, hname, hpath, TypeKind.name_injective hkind, eq_of_toString_eq hlines,
    eq_of_toString_eq hcomplexity, Source.ComplexityBand.name_injective hband,
    eq_of_toString_eq hefferent, eq_of_toString_eq hafferent, QualityBand.name_injective hquality]

/-- The row of an entity tells all that the table shows of it. -/
theorem shown_eq_of_rowLine_eq {m other : Metrics} (hname : StartsUnquoted m.name)
    (hpath : StartsUnquoted m.path) (hname' : StartsUnquoted other.name)
    (hpath' : StartsUnquoted other.path)
    (h : rowLine (entityRow m) = rowLine (entityRow other)) : shown m = shown other := by
  have hread := readRow?_rowLine (entityRow_shows hname hpath) (by simp [entityRow])
  have hread' := readRow?_rowLine (entityRow_shows hname' hpath') (by simp [entityRow])
  have hlength (m : Metrics) : (entityRow m).length = 12 := rfl
  rw [hlength] at hread hread'
  rw [h, hread'] at hread
  exact shown_eq_of_entityValues_eq (Option.some.inj hread).symm

/-- Lists with the same lines of rows agree in whatever a line tells of its row. -/
theorem map_eq_of_map_eq {α β γ : Type*} {line : α → β} {told : α → γ} {items others : List α}
    (htold : ∀ a ∈ items, ∀ b ∈ others, line a = line b → told a = told b)
    (h : items.map line = others.map line) : items.map told = others.map told := by
  induction items generalizing others with
  | nil => rw [List.map_eq_nil_iff.mp h.symm]
  | cons a items ih =>
    obtain ⟨b, others, rfl, hline, hrest⟩ := List.map_eq_cons_iff.mp h.symm
    rw [List.map_cons, List.map_cons, htold a (by simp) b (by simp) hline.symm,
      ih (fun a ha b hb => htold a (by simp [ha]) b (by simp [hb])) hrest.symm]

/-! ## Reading relationships -/

/-- The rows of the table of relationships. -/
def relationshipRows (text : String) : List (List Char) :=
  leadingRows (linesAfter 'r' (linesAfter 'r' (linesOf text)))

/-- The relationship that a row tells. -/
def readEdgeRow? (line : List Char) : Option Edge :=
  match readRow? 3 (',' :: line.drop 2) with
  | some [source, kind, target] => (RelationshipKind.ofName? kind).map (⟨source, target, ·⟩)
  | _ => none

/-- The relationships that a table listing tells. -/
def tableEdges? (text : String) : Option (List Edge) :=
  (relationshipRows text).mapM readEdgeRow?

/-- A relationship is read from its row. -/
theorem readEdgeRow?_rowLine {edge : Edge} (hsource : StartsUnquoted edge.source)
    (htarget : StartsUnquoted edge.target) :
    readEdgeRow? (rowLine (edgeRow edge)) = some edge := by
  have hread : readRow? 3 (',' :: (rowLine (edgeRow edge)).drop 2) = some (edgeValues edge) :=
    readRow?_rowLine (edgeRow_shows hsource htarget) (by simp [edgeRow])
  rw [readEdgeRow?, hread, edgeValues]
  simp only [RelationshipKind.ofName?_name, Option.map_some]

/-- **A table listing tells its relationships**, if no end of them starts with a quote. -/
theorem tableEdges?_tableListing (assessment : Assessment) {edges : List Edge}
    (scope : Option String)
    (hedges : ∀ edge ∈ edges, StartsUnquoted edge.source ∧ StartsUnquoted edge.target) :
    tableEdges? (tableListing assessment edges scope) = some edges := by
  have hrows := (rows_of_tableListing assessment edges scope).2
  rw [tableEdges?, relationshipRows, hrows, List.map_map]
  clear hrows
  induction edges with
  | nil => rfl
  | cons edge edges ih =>
    obtain ⟨⟨hsource, htarget⟩, hrest⟩ := List.forall_mem_cons.mp hedges
    rw [List.map_cons, List.mapM_cons, Function.comp_apply, readEdgeRow?_rowLine hsource htarget,
      ih hrest]
    rfl

/-- **A listing loses nothing.** Two assessments with the same listing have the same rows of
entities and the same relationships, if no name, path or end of a relationship starts with a
quote. -/
theorem tables_eq_of_tableListing_eq {assessment assessment' : Assessment}
    {edges edges' : List Edge} {scope scope' : Option String} (hlist : IsListable assessment edges)
    (hlist' : IsListable assessment' edges')
    (h : tableListing assessment edges scope = tableListing assessment' edges' scope') :
    assessment.entities.map shown = assessment'.entities.map shown ∧ edges = edges' := by
  constructor
  · have hentities := (rows_of_tableListing assessment edges scope).1
    rw [h, (rows_of_tableListing assessment' edges' scope').1, List.map_map, List.map_map]
      at hentities
    refine map_eq_of_map_eq (fun m hm other hother hline => ?_) hentities.symm
    obtain ⟨hname, hpath⟩ := hlist.entities m hm
    obtain ⟨hname', hpath'⟩ := hlist'.entities other hother
    exact shown_eq_of_rowLine_eq hname hpath hname' hpath' hline
  · have hread := tableEdges?_tableListing assessment scope hlist.edges
    rw [h, tableEdges?_tableListing assessment' scope' hlist'.edges] at hread
    exact (Option.some.inj hread).symm

/-- A type whose name and path can be taken for values of another kind. -/
def oddMetrics (instability : Float) : Metrics where
  name := "null"
  path := "12, \"a\"\n  b"
  kind := .concrete
  lines := 3
  complexity := 1
  complexityBand := .low
  efferent := 3
  afferent := 1
  abstractness := 0.0
  instability := instability
  distance := 0.25
  quality := .good

/-- An assessment of that type alone. -/
def oddAssessment (instability : Float) : Assessment where
  entities := [oddMetrics instability]
  totalEntities := 1
  totalLines := 3
  averageComplexity := 1.0
  averageDistance := 0.25
  abstractCount := 0
  interfaceCount := 0

/-- A relationship of that type with one whose name holds quotes. -/
def oddEdges : List Edge :=
  [⟨"null", "say \"-\"", .depends⟩]

/-- The same relationship with one whose name holds none. -/
def plainEdges : List Edge :=
  [⟨"null", "say -", .depends⟩]

/-- Neither the name nor the path of that type starts with a quote. -/
theorem isListable_oddAssessment (instability : Float) {edges : List Edge}
    (hedges : ∀ edge ∈ edges, StartsUnquoted edge.source ∧ StartsUnquoted edge.target) :
    IsListable (oddAssessment instability) edges :=
  ⟨by simp [oddAssessment, oddMetrics, StartsUnquoted], hedges⟩

/-- Ratios are rounded and the top folder is shown alike under both of its names, so two different
assessments have the same listing. It does tell two names apart of which one holds quotes. -/
theorem tables_eq_of_tableListing_eq_top :
    oddAssessment 0.7500000000000002 ≠ oddAssessment 0.7500000000000003 ∧
      tableListing (oddAssessment 0.7500000000000002) oddEdges (some "") =
        tableListing (oddAssessment 0.7500000000000003) oddEdges (some "/") ∧
      (oddAssessment 0.7500000000000002).entities.map shown =
        (oddAssessment 0.7500000000000003).entities.map shown ∧
      tableListing (oddAssessment 0.7500000000000002) oddEdges (some "") ≠
        tableListing (oddAssessment 0.7500000000000003) plainEdges (some "/") := by
  have hodd : ∀ edge ∈ oddEdges, StartsUnquoted edge.source ∧ StartsUnquoted edge.target := by
    simp [oddEdges, StartsUnquoted]
  have hplain : ∀ edge ∈ plainEdges, StartsUnquoted edge.source ∧ StartsUnquoted edge.target := by
    simp [plainEdges, StartsUnquoted]
  -- the two ratios differ by one in the last place, and not after the product has been rounded
  have hproduct : (0.7500000000000002 : Float) * 100.0 = 0.7500000000000003 * 100.0 := by
    decide +kernel
  have hrow : entityRow (oddMetrics 0.7500000000000002) =
      entityRow (oddMetrics 0.7500000000000003) := by
    simp only [entityRow, oddMetrics, roundTwo, hproduct]
  have hcount (x y : Float) (band : QualityBand) :
      (oddAssessment x).countIn band = (oddAssessment y).countIn band := rfl
  have hscope : scopeName "" = scopeName "/" := by decide
  have h : tableListing (oddAssessment 0.7500000000000002) oddEdges (some "") =
      tableListing (oddAssessment 0.7500000000000003) oddEdges (some "/") := by
    simp only [tableListing, overviewLines, Option.toList_some, List.map_cons, List.map_nil, hscope,
      hcount 0.7500000000000002 0.7500000000000003]
    simp only [oddAssessment, List.map_cons, List.map_nil, hrow, Nat.lt_irrefl, if_false]
  have hratio {x y : Float} (heq : oddAssessment x = oddAssessment y) : x = y := by
    simpa [oddAssessment, oddMetrics] using heq
  have hshown := (tables_eq_of_tableListing_eq (isListable_oddAssessment _ hodd)
    (isListable_oddAssessment _ hodd) h).1
  refine ⟨fun heq => absurd (hratio heq) (by decide +kernel), h, hshown, fun hsame => ?_⟩
  have hedges := (tables_eq_of_tableListing_eq (isListable_oddAssessment _ hodd)
    (isListable_oddAssessment _ hplain) hsame).2
  exact absurd hedges (by decide)

-- A quote at the start is not escaped, so this text and a quoted one are written alike.
example : textCell "\"null\"" = textCell "null" := by decide

end ClassAtlas.Render
