import ClassAtlas.Source.Fields
import ClassAtlas.Proofs.Occurrences
import Mathlib.Data.List.Infix

/-!
# Marks that end a field

A semicolon, an equals sign, a parenthesis or a brace cannot stand inside the declaration of a
field: it ends the declaration or makes that there is none. Each reader that a declaration is put
together from stops in front of such a mark, and only the last one, which looks for the end of the
declaration, may take the mark with it. So a declaration is read in the same way whatever follows
the mark.
-/

namespace ClassAtlas.Source

open ClassAtlas.Text

/-! ## Texts cut by a character -/

/-- Dropping characters of a class ends before a mark that is not in it. -/
theorem dropWhile_append_mark {mark : Char} {p : Char → Bool} (h : p mark = false)
    (front back : List Char) :
    (front ++ mark :: back).dropWhile p = front.dropWhile p ++ mark :: back := by
  induction front with
  | nil => simp [h]
  | cons c front ih =>
    rw [List.cons_append, List.dropWhile_cons, List.dropWhile_cons]
    split
    · exact ih
    · rfl

/-- Taking characters of a class ends before a mark that is not in it. -/
theorem takeWhile_append_mark {mark : Char} {p : Char → Bool} (h : p mark = false)
    (front back : List Char) :
    (front ++ mark :: back).takeWhile p = front.takeWhile p := by
  induction front with
  | nil => simp [h]
  | cons c front ih =>
    rw [List.cons_append, List.takeWhile_cons, List.takeWhile_cons, ih]

/-- A word without the mark is found before it or not at all. -/
theorem isPrefixOf?_append_mark {mark : Char} {word : List Char} (hword : mark ∉ word)
    (front back : List Char) :
    word.isPrefixOf? (front ++ mark :: back) =
      (word.isPrefixOf? front).map (· ++ mark :: back) := by
  induction word generalizing front with
  | nil => rfl
  | cons c word ih =>
    obtain ⟨hc, hrest⟩ := List.ne_and_not_mem_of_not_mem_cons hword
    cases front with
    | nil => simp [List.isPrefixOf?, Ne.symm hc]
    | cons d front =>
      rw [List.cons_append, List.isPrefixOf?, List.isPrefixOf?]
      split
      · exact ih hrest front
      · rfl

/-- Of several readers the first that reads something is the same if they all read the same and
leave more. -/
theorem findSome?_eq_map {ι α β : Type} {list : List ι} {read : ι → Option α} {read' : ι → Option β}
    {more : β → α} (h : ∀ x ∈ list, read x = (read' x).map more) :
    list.findSome? read = (list.findSome? read').map more := by
  induction list with
  | nil => rfl
  | cons x list ih =>
    rw [List.findSome?_cons, List.findSome?_cons, h x List.mem_cons_self,
      ih fun y hy => h y (List.mem_cons_of_mem x hy)]
    cases read' x <;> rfl

/-! ## The marks -/

/-- The marks that end a type, one by one. -/
theorem endsTypeText_iff {c : Char} :
    endsTypeText c = true ↔ c = ';' ∨ c = '=' ∨ c = '(' ∨ c = ')' ∨ c = '{' ∨ c = '}' := by
  simp [endsTypeText, or_assoc]

/-- What a declaration has before its mark: the type arguments if there are any, blanks, and the
declared name. -/
def declaredName? (start : Char → Bool) (text : List Char) : Option (List Char × List Char) :=
  ((afterOptionalTypeArguments? text).bind afterBlankRun?).bind (name? start)

/-- The mark of a declaration is looked for after its name. -/
theorem afterDeclared?_eq (start : Char → Bool) (marks text : List Char) :
    afterDeclared? start marks text = (declaredName? start text).bind fun named =>
      afterMark? marks named.2 := by
  rw [afterDeclared?, declaredName?]
  cases afterOptionalTypeArguments? text with
  | none => rfl
  | some rest =>
    simp only [Option.bind_some]
    cases (afterBlankRun? rest).bind (name? start) <;> rfl

section Marks

variable {mark : Char} (hmark : endsTypeText mark = true)

include hmark

/-- A mark is no blank. -/
theorem not_isBlank_of_endsTypeText : isBlank mark = false := by
  rcases endsTypeText_iff.mp hmark with rfl | rfl | rfl | rfl | rfl | rfl <;> decide

/-- A mark is no part of a name. -/
theorem not_isNameChar_of_endsTypeText : isNameChar mark = false := by
  rcases endsTypeText_iff.mp hmark with rfl | rfl | rfl | rfl | rfl | rfl <;> decide

/-- A mark is no part of a word. -/
theorem not_isWordChar_of_endsTypeText : isWordChar mark = false := by
  have hname := not_isNameChar_of_endsTypeText hmark
  rw [isNameChar, Bool.or_eq_false_iff] at hname
  exact hname.1

/-- A mark starts no name. -/
theorem not_start_of_endsTypeText : isNameStart mark = false ∧ isTypeStart mark = false := by
  rcases endsTypeText_iff.mp hmark with rfl | rfl | rfl | rfl | rfl | rfl <;> decide

/-- A mark is no angle bracket. -/
theorem not_angle_of_endsTypeText : mark ≠ '<' ∧ mark ≠ '>' := by
  rcases endsTypeText_iff.mp hmark with rfl | rfl | rfl | rfl | rfl | rfl <;> decide

/-! ## Readers that stop in front of a mark -/

/-- Blanks end before the mark. -/
theorem afterBlanks_append_mark (front back : List Char) :
    afterBlanks (front ++ mark :: back) = afterBlanks front ++ mark :: back :=
  dropWhile_append_mark (not_isBlank_of_endsTypeText hmark) front back

/-- A run of blanks ends before the mark. -/
theorem afterBlankRun?_append_mark (front back : List Char) :
    afterBlankRun? (front ++ mark :: back) = (afterBlankRun? front).map (· ++ mark :: back) := by
  cases front with
  | nil => simp [afterBlankRun?, not_isBlank_of_endsTypeText hmark]
  | cons c front =>
    rw [List.cons_append, afterBlankRun?, afterBlankRun?, afterBlanks_append_mark hmark]
    split <;> rfl

/-- A name ends before the mark. -/
theorem name?_append_mark {start : Char → Bool} (hstart : start mark = false)
    (front back : List Char) :
    name? start (front ++ mark :: back) =
      (name? start front).map fun (name, rest) => (name, rest ++ mark :: back) := by
  cases front with
  | nil => simp [name?, hstart]
  | cons c front =>
    rw [List.cons_append, name?, name?,
      takeWhile_append_mark (not_isNameChar_of_endsTypeText hmark),
      dropWhile_append_mark (not_isNameChar_of_endsTypeText hmark)]
    split <;> rfl

/-- Brackets that are closed are closed before the mark, since it cannot stand between them. -/
theorem afterClosing?_append_mark (opened : Nat) (front back : List Char) :
    afterClosing? opened (front ++ mark :: back) =
      (afterClosing? opened front).map (· ++ mark :: back) := by
  induction front generalizing opened with
  | nil =>
    obtain ⟨hopen, hclose⟩ := not_angle_of_endsTypeText hmark
    simp [afterClosing?, hopen, hclose, hmark]
  | cons c front ih =>
    rw [List.cons_append, afterClosing?, afterClosing?]
    split_ifs <;> simp [ih]

/-- Type arguments end before the mark, if there are any. -/
theorem afterOptionalTypeArguments?_append_mark (front back : List Char) :
    afterOptionalTypeArguments? (front ++ mark :: back) =
      (afterOptionalTypeArguments? front).map (· ++ mark :: back) := by
  rw [afterOptionalTypeArguments?, afterOptionalTypeArguments?, afterBlanks_append_mark hmark]
  cases afterBlanks front with
  | nil =>
    have hopen := (not_angle_of_endsTypeText hmark).1
    split
    · rename_i heq
      exact absurd (List.cons.inj heq).1 hopen
    · rfl
  | cons c rest =>
    by_cases hc : c = '<'
    · subst hc
      exact afterClosing?_append_mark hmark 1 rest back
    · simp [hc]

/-- A mark that is not looked for is not passed. -/
theorem afterMark?_append_of_not_mem {marks : List Char} (hnot : mark ∉ marks)
    (front back : List Char) :
    afterMark? marks (front ++ mark :: back) =
      (afterMark? marks front).map (· ++ mark :: back) := by
  rw [afterMark?, afterMark?, afterBlanks_append_mark hmark]
  cases afterBlanks front with
  | nil => simp [hnot]
  | cons c rest =>
    simp only [List.cons_append]
    split <;> rfl

/-- Nothing beyond a mark is looked at when a mark is looked for. -/
theorem afterMark?_append_mark (marks front back : List Char) :
    afterMark? marks (front ++ mark :: back) =
      (afterMark? marks (front ++ [mark])).map (· ++ back) := by
  rw [afterMark?, afterMark?, afterBlanks_append_mark hmark, afterBlanks_append_mark hmark]
  cases afterBlanks front with
  | nil =>
    simp only [List.nil_append]
    split <;> rfl
  | cons c rest =>
    simp only [List.cons_append]
    split <;> simp

/-- A declared name ends before the mark. -/
theorem declaredName?_append_mark {start : Char → Bool} (hstart : start mark = false)
    (front back : List Char) :
    declaredName? start (front ++ mark :: back) =
      (declaredName? start front).map fun (name, rest) => (name, rest ++ mark :: back) := by
  rw [declaredName?, declaredName?, afterOptionalTypeArguments?_append_mark hmark]
  cases afterOptionalTypeArguments? front with
  | none => rfl
  | some rest =>
    simp only [Option.map_some, Option.bind_some, afterBlankRun?_append_mark hmark]
    cases afterBlankRun? rest with
    | none => rfl
    | some rest => exact name?_append_mark hmark hstart rest back

/-- A declaration may end with the mark and does not reach beyond it. -/
theorem afterDeclared?_append_mark {start : Char → Bool} (hstart : start mark = false)
    (marks front back : List Char) :
    afterDeclared? start marks (front ++ mark :: back) =
      (afterDeclared? start marks (front ++ [mark])).map (· ++ back) := by
  rw [afterDeclared?_eq, afterDeclared?_eq, declaredName?_append_mark hmark hstart,
    declaredName?_append_mark hmark hstart]
  cases declaredName? start front with
  | none => rfl
  | some named => exact afterMark?_append_mark hmark marks named.2 back

/-- A declaration is not ended by a mark that is not looked for. -/
theorem afterDeclared?_append_of_not_mem {start : Char → Bool} {marks : List Char}
    (hstart : start mark = false) (hnot : mark ∉ marks) (front back : List Char) :
    afterDeclared? start marks (front ++ mark :: back) =
      (afterDeclared? start marks front).map (· ++ mark :: back) := by
  rw [afterDeclared?_eq, afterDeclared?_eq, declaredName?_append_mark hmark hstart]
  cases declaredName? start front with
  | none => rfl
  | some named => exact afterMark?_append_of_not_mem hmark hnot named.2 back

end Marks

/-! ## Modifiers -/

/-- A modifier is one of the words, with a blank after it. -/
theorem exists_of_modifier?_eq_some {text word rest : List Char}
    (h : modifier? text = some (word, rest)) :
    word ∈ fieldModifiers ∧ ∃ c tail, text = word ++ c :: tail ∧ rest = afterBlanks tail := by
  obtain ⟨other, hmem, hread⟩ := List.exists_of_findSome?_eq_some h
  obtain ⟨found, hfound, heq⟩ := Option.map_eq_some_iff.mp hread
  obtain ⟨rfl, rfl⟩ := Prod.mk.inj heq
  obtain ⟨tail, htail, hblank⟩ := Option.bind_eq_some_iff.mp hfound
  cases tail with
  | nil => cases hblank
  | cons c tail =>
    rw [afterBlankRun?] at hblank
    split at hblank
    · cases hblank
      exact ⟨hmem, c, tail, (List.isPrefixOf?_eq_some_iff_append_eq.mp htail).symm, rfl⟩
    · cases hblank

/-- No modifier is read where none of them can start. -/
theorem modifier?_cons_eq_none {c : Char} (h : ∀ word ∈ fieldModifiers, word.head? ≠ some c)
    (rest : List Char) :
    modifier? (c :: rest) = none := by
  rw [Option.eq_none_iff_forall_ne_some]
  rintro ⟨word, after⟩ hread
  obtain ⟨hmem, d, tail, htext, _⟩ := exists_of_modifier?_eq_some hread
  cases word with
  | nil => exact absurd hmem (by decide)
  | cons e word => exact h (e :: word) hmem (by rw [(List.cons.inj htext).1]; rfl)

/-- A modifier takes up at least one character. -/
theorem length_lt_of_modifier?_eq_some {text word rest : List Char}
    (h : modifier? text = some (word, rest)) :
    rest.length < text.length := by
  obtain ⟨_, c, tail, rfl, rfl⟩ := exists_of_modifier?_eq_some h
  have hblanks : (afterBlanks tail).length ≤ tail.length := (List.dropWhile_sublist _).length_le
  rw [List.length_append, List.length_cons]
  omega

/-- Where no modifier stands, none is read. -/
theorem leadingModifiers_of_none {text : List Char} (h : modifier? text = none) (count : Nat) :
    leadingModifiers count text = ([], text) := by
  cases count with
  | zero => rfl
  | succ count => rw [leadingModifiers, h]

/-- Any two counts that reach the length of the text let all modifiers be read. -/
theorem leadingModifiers_congr {text : List Char} {count count' : Nat} (h : text.length ≤ count)
    (h' : text.length ≤ count') : leadingModifiers count text = leadingModifiers count' text := by
  induction count generalizing text count' with
  | zero =>
    obtain rfl : text = [] := List.length_eq_zero_iff.mp (by omega)
    rw [leadingModifiers_of_none rfl, leadingModifiers_of_none rfl]
  | succ count ih =>
    cases hread : modifier? text with
    | none => rw [leadingModifiers_of_none hread, leadingModifiers_of_none hread]
    | some result =>
      obtain ⟨word, rest⟩ := result
      have hlength := length_lt_of_modifier?_eq_some hread
      obtain ⟨count', rfl⟩ : ∃ smaller, count' = smaller + 1 := ⟨count' - 1, by omega⟩
      have hrest : leadingModifiers count rest = leadingModifiers count' rest :=
        ih (by omega) (by omega)
      simp only [leadingModifiers, hread, hrest]

/-- As many steps as the text has characters read all modifiers. -/
theorem modifiers_eq {text : List Char} {count : Nat} (h : text.length ≤ count) :
    modifiers text = leadingModifiers count text := by
  rw [modifiers]
  cases hread : modifier? text with
  | none => exact (leadingModifiers_of_none hread count).symm
  | some result => exact leadingModifiers_congr le_rfl h

section Marks

variable {mark : Char} (hmark : endsTypeText mark = true)

include hmark

/-- A modifier ends before the mark. -/
theorem modifier?_append_mark (front back : List Char) :
    modifier? (front ++ mark :: back) = (modifier? front).map fun (word, rest) =>
      (word, rest ++ mark :: back) := by
  have hwords : ∀ word ∈ fieldModifiers, mark ∉ word := by
    rcases endsTypeText_iff.mp hmark with rfl | rfl | rfl | rfl | rfl | rfl <;> decide
  refine findSome?_eq_map fun word hword => ?_
  rw [isPrefixOf?_append_mark (hwords word hword)]
  cases word.isPrefixOf? front with
  | none => rfl
  | some rest =>
    simp only [Option.map_some, Option.bind_some, afterBlankRun?_append_mark hmark, Option.map_map]
    rfl

/-- Any number of modifiers ends before the mark. -/
theorem leadingModifiers_append_mark (count : Nat) (front back : List Char) :
    leadingModifiers count (front ++ mark :: back) =
      ((leadingModifiers count front).1, (leadingModifiers count front).2 ++ mark :: back) := by
  induction count generalizing front with
  | zero => rfl
  | succ count ih =>
    rw [leadingModifiers, leadingModifiers, modifier?_append_mark hmark]
    cases modifier? front with
    | none => rfl
    | some result => simp [ih]

/-- The modifiers of a field end before the mark. -/
theorem modifiers_append_mark (front back : List Char) :
    modifiers (front ++ mark :: back) =
      ((modifiers front).1, (modifiers front).2 ++ mark :: back) := by
  have hlength : front.length ≤ (front ++ mark :: back).length := by
    rw [List.length_append]
    omega
  rw [modifiers_eq le_rfl, modifiers_eq hlength, leadingModifiers_append_mark hmark]

end Marks

/-! ## Declarations of fields -/

/-- Field declarations see only whether a word may start before them. -/
theorem local_fieldDeclaration : fieldDeclaration.Local := by
  intro before before' text h
  rw [fieldDeclaration, fieldDeclaration, h]

/-- A field declaration starts a word. -/
theorem startsWords_fieldDeclaration : fieldDeclaration.StartsWords := by
  intro before text h
  rw [fieldDeclaration, h]
  rfl

/-- No field is declared where neither a modifier nor a type can start. -/
theorem fieldDeclaration_cons_eq_none {c : Char}
    (hword : ∀ word ∈ fieldModifiers, word.head? ≠ some c) (htype : isTypeStart c = false)
    (before rest : List Char) : fieldDeclaration before (c :: rest) = none := by
  have hmodifiers : modifiers (c :: rest) = ([], c :: rest) := by
    rw [modifiers, modifier?_cons_eq_none hword]
    rfl
  simp [fieldDeclaration, hmodifiers, typeName?, name?, htype]

/-- **The declaration of a field ends at a mark.** -/
theorem endsAt_fieldDeclaration {mark : Char} (hmark : endsTypeText mark = true) :
    fieldDeclaration.EndsAt mark := by
  intro before front back
  obtain ⟨hname, htype⟩ := not_start_of_endsTypeText hmark
  rw [fieldDeclaration, fieldDeclaration]
  split
  · rw [modifiers_append_mark hmark, modifiers_append_mark hmark]
    simp only [typeName?, name?_append_mark hmark htype]
    cases name? isTypeStart (modifiers front).2 with
    | none => rfl
    | some named =>
      simp only [Option.map_some, afterDeclared?_append_mark hmark hname fieldMarks named.2 back]
      cases afterDeclared? isNameStart fieldMarks (named.2 ++ [mark]) <;> rfl
  · rfl

/-! ## Container fields -/

/-- Fields of container types see only whether a word may start before them. -/
theorem local_containerField (containers : NameSet) : (containerField containers).Local := by
  intro before before' text h
  rw [containerField, containerField, atWordBoundary, atWordBoundary, h]

/-- After the name of a field a mark may end it, and nothing beyond the mark is read. -/
theorem afterFieldName?_append_mark {mark : Char} (hmark : endsTypeText mark = true)
    (front back : List Char) :
    afterFieldName? (front ++ mark :: back) =
      (afterFieldName? (front ++ [mark])).map (· ++ back) := by
  obtain ⟨hname, _⟩ := not_start_of_endsTypeText hmark
  rw [afterFieldName?, afterFieldName?, afterBlanks_append_mark hmark,
    afterBlanks_append_mark hmark, name?_append_mark hmark hname, name?_append_mark hmark hname]
  cases name? isNameStart (afterBlanks front) with
  | none => rfl
  | some named => exact afterMark?_append_mark hmark fieldMarks named.2 back

/-- The type arguments of a container and the name after them do not reach beyond the mark. -/
theorem containerArguments?_append_mark {mark : Char} (hmark : endsTypeText mark = true)
    (front back : List Char) :
    containerArguments? (front ++ mark :: back) =
      (containerArguments? (front ++ [mark])).map fun (arguments, after) =>
        (arguments, after ++ back) := by
  induction front with
  | nil => simp [containerArguments?, hmark]
  | cons c front ih =>
    rw [List.cons_append, List.cons_append, containerArguments?, containerArguments?, ih]
    split
    · rfl
    · cases containerArguments? (front ++ [mark]) with
      | some result => rfl
      | none =>
        simp only [Option.map_none]
        split
        · rw [afterFieldName?_append_mark hmark, Option.map_map, Option.map_map]
          rfl
        · rfl

/-- **A container field ends at a mark** that is no part of the name of a container. -/
theorem endsAt_containerField {containers : NameSet} {mark : Char}
    (hmark : endsTypeText mark = true)
    (hcontainers : ∀ container ∈ containers, mark ∉ container.toList) :
    (containerField containers).EndsAt mark := by
  intro before front back
  have hboundary :
      atWordBoundary before (front ++ mark :: back) = atWordBoundary before (front ++ [mark]) := by
    cases front <;> rfl
  have hangle : mark ∉ ['<'] := by simpa using (not_angle_of_endsTypeText hmark).1
  rw [containerField, containerField, hboundary]
  split
  · refine findSome?_eq_map fun container hmem => ?_
    have hnot := hcontainers container hmem
    rw [containerFieldOf?, containerFieldOf?, isPrefixOf?_append_mark hnot,
      isPrefixOf?_append_mark hnot]
    cases container.toList.isPrefixOf? front with
    | none => rfl
    | some rest =>
      simp only [Option.map_some, Option.bind_some, afterMark?_append_of_not_mem hmark hangle]
      cases afterMark? ['<'] rest with
      | none => rfl
      | some rest => exact containerArguments?_append_mark hmark rest back
  · rfl

end ClassAtlas.Source
