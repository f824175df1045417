import ClassAtlas.Render.Document
import ClassAtlas.Proofs.TableListing

/-!
# What a document tells

The relationships are the last member of a document. In its text they stand in the lines after the
last one that starts a member of the outermost object, five lines for each relationship. This file
reads them from there, strings with all their escapes included, and proves that the relationships
which are read are those which were written.
-/

namespace ClassAtlas.Json

/-! ## Strings -/

/-- The character that a letter after a backslash stands for. -/
def shortEscape? (c : Char) : Option Char :=
  if c = '"' ∨ c = '\\' then some c
  else if c = 'n' then some '\n'
  else if c = 'r' then some '\r'
  else if c = 't' then some '\t'
  else if c = 'b' then some (Char.ofNat 8)
  else if c = 'f' then some (Char.ofNat 12)
  else none

/-- The number that hexadecimal digits write. -/
def hexCode (digits : List Char) : Nat :=
  digits.foldl (fun code c => 16 * code + "0123456789abcdef".toList.idxOf c) 0

/-- The string up to the quote that ends it, and what follows the quote. -/
def readString? : List Char → Option (List Char × List Char)
  | [] => none
  | '\\' :: 'u' :: a :: b :: c :: d :: rest =>
    (readString? rest).map fun read => (Char.ofNat (hexCode [a, b, c, d]) :: read.1, read.2)
  | '\\' :: c :: rest =>
    (shortEscape? c).bind fun c => (readString? rest).map fun read => (c :: read.1, read.2)
  | c :: rest =>
    if c = '"' then some ([], rest)
    else (readString? rest).map fun read => (c :: read.1, read.2)

/-- A control character is written with four hexadecimal digits, which tell its code and take up one
line. -/
theorem hexCode_hex4 :
    ∀ code < 32, (hex4 code).length = 4 ∧ hexCode (hex4 code) = code ∧ '\n' ∉ hex4 code := by
  decide

/-- Every character is read back from what stands for it inside a string. -/
theorem readString?_escaped_append (c : Char) (rest : List Char) :
    readString? (escaped c ++ rest) = (readString? rest).map fun read => (c :: read.1, read.2) := by
  unfold escaped
  split_ifs with hquote hbackslash hplain hfeed hreturn htab hback hform
  · subst hquote; rfl
  · subst hbackslash; rfl
  · rw [List.singleton_append, readString?, if_neg hquote]
    · exact fun _ _ _ _ _ heq _ => hbackslash heq
    · exact fun _ _ heq _ => hbackslash heq
  · subst hfeed; rfl
  · subst hreturn; rfl
  · subst htab; rfl
  · obtain rfl : c = Char.ofNat 8 := by rw [← hback, Char.ofNat_toNat]
    rfl
  · obtain rfl : c = Char.ofNat 12 := by rw [← hform, Char.ofNat_toNat]
    rfl
  · obtain ⟨hlength, hcode, -⟩ := hexCode_hex4 c.toNat (by omega)
    obtain ⟨d₁, d₂, d₃, d₄, hdigits⟩ := List.length_eq_four.mp hlength
    rw [hdigits] at hcode ⊢
    have hchar : Char.ofNat (hexCode [d₁, d₂, d₃, d₄]) = c := by rw [hcode, Char.ofNat_toNat]
    simp only [List.cons_append, List.nil_append, readString?, hchar]

/-- A string is read back up to its own quote, whatever follows it. -/
theorem readString?_flatMap_escaped (text rest : List Char) :
    readString? (text.flatMap escaped ++ '"' :: rest) = some (text, rest) := by
  induction text with
  | nil => rfl
  | cons c text ih =>
    rw [List.flatMap_cons, List.append_assoc, readString?_escaped_append, ih, Option.map_some]

/-- A string in quotes, character by character. -/
theorem toList_quote (text : String) :
    (quote text).toList = '"' :: (text.toList.flatMap escaped ++ ['"']) := by
  simp [quote]

/-- What stands for a character inside a string takes up one line. -/
theorem feed_not_mem_escaped (c : Char) : '\n' ∉ escaped c := by
  unfold escaped
  split_ifs with hquote hbackslash hplain hfeed hreturn htab hback hform
  · decide
  · decide
  · rw [List.mem_singleton]
    rintro rfl
    exact absurd hplain (by decide)
  · decide
  · decide
  · decide
  · decide
  · decide
  · obtain ⟨-, -, hdigits⟩ := hexCode_hex4 c.toNat (by omega)
    simpa using hdigits

/-- A string in quotes takes up one line, whatever characters it holds. -/
theorem feed_not_mem_quote (text : String) : '\n' ∉ (quote text).toList := by
  rw [toList_quote]
  simp [feed_not_mem_escaped]

/-! ## Layout -/

/-- Every item of a list starts a line. -/
theorem indentedItems_eq_map (level : Nat) (items : List Json) :
    indentedItems level items = items.map fun item => lineStart level ++ indented level item := by
  induction items with
  | nil => rfl
  | cons item items ih => rw [indentedItems, ih, List.map_cons]

/-- Every member of an object starts a line. -/
theorem indentedMembers_eq_map (level : Nat) (members : List (String × Json)) :
    indentedMembers level members = members.map fun member =>
      lineStart level ++ quote member.1 ++ ": " ++ indented level member.2 := by
  induction members with
  | nil => rfl
  | cons member members ih => rw [indentedMembers, ih, List.map_cons]

/-- Whatever stands before it, the last of several pieces ends the text. -/
theorem suffix_intercalate_concat (sep : Char) (pieces : List (List Char)) (last : List Char) :
    last <:+ [sep].intercalate (pieces ++ [last]) := by
  induction pieces with
  | nil => simp
  | cons piece pieces ih =>
    obtain ⟨next, more, hmore⟩ := List.exists_cons_of_ne_nil (List.concat_ne_nil last pieces)
    rw [List.cons_append, hmore, List.intercalate_cons_cons, ← hmore]
    exact ih.trans (List.suffix_append _ _)

/-- The text of an object ends with its last member, which starts a line. -/
theorem suffix_pretty_concat (front : List (String × Json)) (key : String) (value : Json) :
    '\n' :: ' ' :: ' ' :: ((quote key).toList ++ ':' :: ' ' :: (indented 1 value).toList ++
        ['\n', '}']) <:+
      (pretty (.object (front ++ [(key, value)]))).toList := by
  obtain ⟨first, more, hmore⟩ := List.exists_cons_of_ne_nil (List.concat_ne_nil (key, value) front)
  have hstart : (lineStart 1).toList = ['\n', ' ', ' '] := rfl
  have hbraces (inner : String) : ("\x7b" ++ inner ++ lineStart 0 ++ "\x7d").toList =
      '{' :: (inner.toList ++ ['\n', '}']) := by
    simp [lineStart]
  obtain ⟨text, htext⟩ := suffix_intercalate_concat ','
    ((indentedMembers 1 front).map String.toList)
    (lineStart 1 ++ quote key ++ ": " ++ indented 1 value).toList
  have hsep : ",".toList = [','] := rfl
  rw [pretty, hmore, indented, ← hmore, hbraces, String.toList_intercalate, hsep,
    indentedMembers_eq_map, List.map_append, List.map_append, ← indentedMembers_eq_map,
    List.map_singleton, List.map_singleton, ← htext]
  refine ⟨'{' :: text, ?_⟩
  simp [hstart]

end ClassAtlas.Json

namespace ClassAtlas.Render

/-! ## Reading relationships -/

/-- The value of the member with the given key. It stands on a line of its own, three levels inside,
with a comma after it unless it is the last member. -/
def readMember? (key : String) (line : List Char) : Option String := do
  let text ← line.dropPrefix? (List.replicate 6 ' ' ++ ['"'])
  let (found, rest) ← Json.readString? text
  let text ← rest.dropPrefix? [':', ' ', '"']
  let (value, rest) ← Json.readString? text
  if found = key.toList ∧ (rest = [] ∨ rest = [',']) then some (String.ofList value) else none

/-- The relationship whose members stand on these lines. -/
def readEdge? (source target kind : List Char) : Option Edge := do
  let source ← readMember? "source" source
  let target ← readMember? "target" target
  let kind ← readMember? "kind" kind
  let kind ← RelationshipKind.ofName? kind
  some ⟨source, target, kind⟩

/-- The line that ends the list of relationships, and the one that ends the document. -/
def closingLines : List (List Char) :=
  [[' ', ' ', ']'], ['}']]

/-- The relationships in the lines of their list, up to the end of the document. -/
def readEdges? : List (List Char) → Option (List Edge)
  | opening :: source :: target :: kind :: closing :: rest => do
    let edge ← readEdge? source target kind
    let edges ← readEdges? rest
    if opening = [' ', ' ', ' ', ' ', '{'] ∧ [' ', ' ', ' ', ' ', '}'] <+: closing then
      some (edge :: edges)
    else none
  | rest => if rest = closingLines then some [] else none

/-- The line starts a member of the outermost object. -/
def startsMember (line : List Char) : Bool :=
  [' ', ' ', '"'].isPrefixOf line

/-- The lines from the last one on that starts a member of the outermost object. -/
def lastMember : List (List Char) → List (List Char)
  | [] => []
  | line :: rest =>
    if rest.any startsMember then lastMember rest
    else if startsMember line then line :: rest
    else []

/-- The relationships that a document tells. They are the last member of the outermost object. -/
def documentEdges? (text : String) : Option (List Edge) :=
  match lastMember (linesOf text) with
  | first :: rest =>
    if first = "  \"relationships\": [".toList then readEdges? rest
    else if first = "  \"relationships\": []".toList ∧ rest = [['}']] then some []
    else none
  | [] => none

/-! ## The lines of relationships -/

/-- The line of a member whose value is a text, three levels inside. -/
def memberLine (key value : String) : List Char :=
  List.replicate 6 ' ' ++ (Json.quote key).toList ++ ':' :: ' ' :: (Json.quote value).toList

/-- The lines of a relationship. A comma follows if it is not the last. -/
def edgeObject (edge : Edge) (comma : List Char) : List (List Char) :=
  [[' ', ' ', ' ', ' ', '{'], memberLine "source" edge.source ++ [','],
    memberLine "target" edge.target ++ [','], memberLine "kind" edge.kind.name,
    [' ', ' ', ' ', ' ', '}'] ++ comma]

/-- The lines of several relationships. -/
def edgeObjects : List Edge → List (List Char)
  | [] => []
  | edge :: edges => edgeObject edge (if edges = [] then [] else [',']) ++ edgeObjects edges

/-- The lines of the member that holds the relationships, and of the end of the document. -/
def relationshipLines (edges : List Edge) : List (List Char) :=
  if edges = [] then ["  \"relationships\": []".toList, ['}']]
  else "  \"relationships\": [".toList :: (edgeObjects edges ++ closingLines)

/-- What follows the expected characters is left. -/
theorem dropPrefix?_append (front rest : List Char) :
    (front ++ rest).dropPrefix? front = some rest :=
  List.dropPrefix?_eq_some_iff.mpr ⟨front, rfl, beq_self_eq_true front⟩

/-- A member is read from its line, with or without a comma after it. -/
theorem readMember?_memberLine (key value : String) {comma : List Char}
    (hcomma : comma = [] ∨ comma = [',']) :
    readMember? key (memberLine key value ++ comma) = some value := by
  have hline : memberLine key value ++ comma = (List.replicate 6 ' ' ++ ['"']) ++
      (key.toList.flatMap Json.escaped ++ '"' :: ([':', ' ', '"'] ++
        (value.toList.flatMap Json.escaped ++ '"' :: comma))) := by
    rw [memberLine, Json.toList_quote, Json.toList_quote]
    simp only [List.append_assoc, List.cons_append, List.nil_append]
  rw [hline, readMember?]
  simp only [dropPrefix?_append, Json.readString?_flatMap_escaped, Option.bind_eq_bind,
    Option.bind_some, true_and, if_pos hcomma, String.ofList_toList]

/-- A relationship is read from the lines of its members. -/
theorem readEdge?_edgeObject (edge : Edge) :
    readEdge? (memberLine "source" edge.source ++ [',']) (memberLine "target" edge.target ++ [','])
      (memberLine "kind" edge.kind.name) = some edge := by
  have hkind := readMember?_memberLine "kind" edge.kind.name (.inl rfl)
  rw [List.append_nil] at hkind
  simp only [readEdge?, readMember?_memberLine _ _ (.inr rfl), hkind, RelationshipKind.ofName?_name,
    Option.bind_eq_bind, Option.bind_some]

/-- Several relationships are read from their lines. -/
theorem readEdges?_edgeObjects (edges : List Edge) :
    readEdges? (edgeObjects edges ++ closingLines) = some edges := by
  induction edges with
  | nil => rfl
  | cons edge edges ih =>
    have hclosing (comma : List Char) :
        [' ', ' ', ' ', ' ', '}'] <+: [' ', ' ', ' ', ' ', '}'] ++ comma :=
      List.prefix_append _ _
    rw [edgeObjects, edgeObject, List.append_assoc, List.cons_append, List.cons_append,
      List.cons_append, List.cons_append, List.cons_append, List.nil_append, readEdges?,
      readEdge?_edgeObject, ih]
    simp only [Option.bind_eq_bind, Option.bind_some, hclosing, and_self, if_true]

/-- The text of a relationship, line by line. -/
theorem toList_indented_toJson (edge : Edge) :
    (Json.lineStart 2 ++ Json.indented 2 edge.toJson).toList =
      (edgeObject edge []).flatMap ('\n' :: ·) := by
  have hstart : (Json.lineStart 3).toList = '\n' :: List.replicate 6 ' ' := rfl
  have hclose : (Json.lineStart 2).toList = ['\n', ' ', ' ', ' ', ' '] := rfl
  have hsep : ",".toList = [','] := rfl
  have hcolon : ": ".toList = [':', ' '] := rfl
  have hbraces : "\x7b".toList = ['{'] ∧ "\x7d".toList = ['}'] := ⟨rfl, rfl⟩
  rw [Edge.toJson, Json.indented, Json.indentedMembers_eq_map]
  simp only [edgeObject, memberLine, List.map_cons, List.map_nil, Json.indented, Json.scalar,
    String.toList_append, String.toList_intercalate, hstart, hsep, hclose, hbraces, hcolon,
    List.intercalate_cons_cons, List.intercalate_singleton, List.flatMap_cons, List.flatMap_nil,
    List.cons_append, List.nil_append, List.append_assoc, List.append_nil]

/-- The texts of relationships with commas between them, line by line. -/
theorem toList_intercalate_toJson (edges : List Edge) :
    (String.intercalate "," (Json.indentedItems 2 (edges.map Edge.toJson))).toList =
      (edgeObjects edges).flatMap ('\n' :: ·) := by
  have hsep : ",".toList = [','] := rfl
  have hcomma (edge : Edge) : (edgeObject edge [',']).flatMap ('\n' :: ·) =
      (edgeObject edge []).flatMap ('\n' :: ·) ++ [','] := by
    simp [edgeObject]
  rw [Json.indentedItems_eq_map, List.map_map, String.toList_intercalate, hsep, List.map_map]
  simp only [Function.comp_def, toList_indented_toJson]
  induction edges with
  | nil => rfl
  | cons edge edges ih =>
    rw [List.map_cons, edgeObjects, List.flatMap_append, ← ih]
    cases edges with
    | nil => simp
    | cons next edges =>
      rw [List.map_cons, List.intercalate_cons_cons, if_neg (List.cons_ne_nil next edges), hcomma]

/-- The member that holds the relationships, line by line. -/
theorem feed_cons_relationships (edges : List Edge) :
    '\n' :: ' ' :: ' ' :: ((Json.quote "relationships").toList ++
        ':' :: ' ' :: (Json.indented 1 (.list (edges.map Edge.toJson))).toList ++ ['\n', '}']) =
      (relationshipLines edges).flatMap ('\n' :: ·) := by
  have hkey : (Json.quote "relationships").toList = "\"relationships\"".toList := rfl
  have hopen : "  \"relationships\": [".toList =
      ' ' :: ' ' :: ("\"relationships\"".toList ++ [':', ' ', '[']) := rfl
  cases edges with
  | nil => rfl
  | cons edge edges =>
    have hbrackets : "[".toList = ['['] ∧ "]".toList = [']'] := ⟨rfl, rfl⟩
    have hclose : (Json.lineStart 1).toList = ['\n', ' ', ' '] := rfl
    rw [relationshipLines, if_neg (List.cons_ne_nil edge edges), List.flatMap_cons,
      List.flatMap_append, ← toList_intercalate_toJson, hopen, hkey, List.map_cons, Json.indented]
    simp only [String.toList_append, hbrackets, hclose, closingLines, List.flatMap_cons,
      List.flatMap_nil, List.cons_append, List.nil_append, List.append_assoc]

/-- A single line that starts no member of the outermost object. -/
def IsInnerLine (line : List Char) : Prop :=
  '\n' ∉ line ∧ startsMember line = false
deriving Decidable

/-- The line of a member stands too far inside to start a member of the outermost object. -/
theorem isInnerLine_memberLine_append (key value : String) {comma : List Char}
    (hcomma : '\n' ∉ comma) : IsInnerLine (memberLine key value ++ comma) := by
  refine ⟨?_, rfl⟩
  simp [memberLine, Json.feed_not_mem_quote, hcomma]

/-- The lines of relationships all stand inside the member that holds them. -/
theorem isInnerLine_of_mem_edgeObjects {edges : List Edge} {line : List Char}
    (hline : line ∈ edgeObjects edges) : IsInnerLine line := by
  induction edges with
  | nil => cases hline
  | cons edge edges ih =>
    rcases List.mem_append.mp hline with hline | hline
    · simp only [edgeObject, List.mem_cons, List.not_mem_nil, or_false] at hline
      rcases hline with rfl | rfl | rfl | rfl | rfl
      · decide
      · exact isInnerLine_memberLine_append "source" edge.source (by decide)
      · exact isInnerLine_memberLine_append "target" edge.target (by decide)
      · rw [← List.append_nil (memberLine "kind" edge.kind.name)]
        exact isInnerLine_memberLine_append "kind" edge.kind.name List.not_mem_nil
      · split <;> decide
    · exact ih hline

/-- The last member starts where no later line starts one. -/
theorem lastMember_append (front : List (List Char)) {first : List Char} {rest : List (List Char)}
    (hfirst : startsMember first = true) (hrest : ∀ line ∈ rest, startsMember line = false) :
    lastMember (front ++ first :: rest) = first :: rest := by
  have hnone : rest.any startsMember = false := by simpa using hrest
  induction front with
  | nil => rw [List.nil_append, lastMember, hnone, hfirst]; rfl
  | cons line front ih =>
    have hlater : (front ++ first :: rest).any startsMember = true := by simp [hfirst]
    rw [List.cons_append, lastMember, if_pos hlater, ih]

/-- The member that holds the relationships starts with its key, and no other line of it starts a
member of the outermost object. -/
theorem exists_relationshipLines_eq (edges : List Edge) :
    ∃ first rest, relationshipLines edges = first :: rest ∧ startsMember first = true ∧
      (∀ line ∈ rest, startsMember line = false) ∧ ∀ line ∈ first :: rest, '\n' ∉ line := by
  unfold relationshipLines
  split
  · exact ⟨_, _, rfl, by decide, by decide, by decide⟩
  · have hclosing : ∀ line ∈ closingLines, IsInnerLine line := by decide
    have hlines : ∀ line ∈ edgeObjects edges ++ closingLines, IsInnerLine line := by
      intro line hline
      exact (List.mem_append.mp hline).elim isInnerLine_of_mem_edgeObjects (hclosing line)
    refine ⟨_, _, rfl, by decide, fun line hline => (hlines line hline).2, ?_⟩
    exact List.forall_mem_cons.mpr ⟨by decide, fun line hline => (hlines line hline).1⟩

/-- The text of a document ends with the lines of its relationships. -/
theorem exists_linesOf_document (folder : Option String) (entities : List Entity)
    (edges : List Edge) :
    ∃ front, linesOf (document folder entities edges).pretty =
      front ++ relationshipLines edges := by
  obtain ⟨front, hfront⟩ := Json.suffix_pretty_concat
    ((folder.toList.map fun name => ("folder", Json.text name)) ++
      [("summary", (Assessment.ofEntities entities).toJson),
        ("entities", .list (entities.map Entity.toJson))])
    "relationships" (.list (edges.map Edge.toJson))
  obtain ⟨first, rest, hlines, -, -, hfeed⟩ := exists_relationshipLines_eq edges
  rw [← hlines] at hfeed
  have hne : relationshipLines edges ≠ [] := by simp [hlines]
  rw [feed_cons_relationships, ← cons_intercalate hne, List.append_assoc, List.cons_append,
    List.cons_append, List.nil_append] at hfront
  refine ⟨front.splitOn '\n', ?_⟩
  rw [linesOf, document, ← hfront, List.splitOn_append_cons_self,
    List.splitOn_intercalate '\n' hfeed hne]

/-- **A document tells its relationships**, whatever characters their names hold. -/
theorem documentEdges?_document (folder : Option String) (entities : List Entity)
    (edges : List Edge) :
    documentEdges? (document folder entities edges).pretty = some edges := by
  obtain ⟨front, hlines⟩ := exists_linesOf_document folder entities edges
  obtain ⟨first, rest, heq, hfirst, hrest, -⟩ := exists_relationshipLines_eq edges
  have hlast : lastMember (linesOf (document folder entities edges).pretty) =
      relationshipLines edges := by
    rw [hlines, heq, lastMember_append front hfirst hrest]
  rw [documentEdges?, hlast, relationshipLines]
  split_ifs with hedges
  · rw [hedges]
    rfl
  · simp only [if_true, readEdges?_edgeObjects]

end ClassAtlas.Render
