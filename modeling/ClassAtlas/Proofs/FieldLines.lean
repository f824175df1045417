import ClassAtlas.Proofs.Identifiers

/-!
# Written fields

A field is written on a line of its own: modifiers, a type that may have arguments, a name, and
possibly the start value `null`. This file says how such lines and the class around them are
written, and proves that the readers of a declaration and of type arguments read back what was
written.
-/

namespace ClassAtlas.Source

open ClassAtlas.Text

/-! ## Lines -/

/-- The modifiers of a field. -/
inductive Modifier
  | publicAccess
  | protectedAccess
  | privateAccess
  | static
  | final
  | transient
  | volatile
  deriving DecidableEq, Repr

/-- How a modifier is written. -/
def Modifier.word : Modifier → List Char
  | publicAccess => "public".toList
  | protectedAccess => "protected".toList
  | privateAccess => "private".toList
  | static => "static".toList
  | final => "final".toList
  | transient => "transient".toList
  | volatile => "volatile".toList

/-- Modifiers in front of a text, each with a space after it. -/
def modified (list : List Modifier) (rest : List Char) : List Char :=
  (list.flatMap fun modifier => modifier.word ++ [' ']) ++ rest

/-- A field as it is written on a line of its own. A type without arguments is written without
brackets. -/
structure FieldLine where
  modifiers : List Modifier
  type : TypeIdentifier
  arguments : List TypeIdentifier
  name : Identifier
  /-- The field is given the value `null`. -/
  initialised : Bool

/-- Type arguments with commas between them. -/
def argumentList : List TypeIdentifier → List Char
  | [] => []
  | first :: more => first.text ++ more.flatMap fun argument => ',' :: ' ' :: argument.text

namespace FieldLine

/-- The type arguments in their brackets. -/
def argumentsText (line : FieldLine) : List Char :=
  if line.arguments.isEmpty then [] else '<' :: (argumentList line.arguments ++ ['>'])

/-- The text of a line. -/
def text (line : FieldLine) : List Char :=
  modified line.modifiers
    (line.type.text ++ line.argumentsText ++ [' '] ++ line.name.text ++
      (if line.initialised then " = null;".toList else ";".toList))

/-- What a reader should find on the line. -/
def field (line : FieldLine) : Field :=
  ⟨line.modifiers.map Modifier.word, line.type.text⟩

end FieldLine

/-- The first line of a class. -/
def classHead (name : TypeIdentifier) : List Char :=
  ['c', 'l', 'a', 's', 's', ' '] ++ name.text ++ [' ', '{']

/-- A class with the given fields, each on a line of its own. -/
def classText (name : TypeIdentifier) (lines : List FieldLine) : List Char :=
  classHead name ++ lines.flatMap (fun line => '\n' :: line.text) ++ ['\n', '}']

/-! ## Reading back a declaration -/

/-- A list of type arguments holds plain characters, commas and spaces only. -/
theorem mem_argumentList {arguments : List TypeIdentifier} {c : Char}
    (hc : c ∈ argumentList arguments) :
    isPlain c = true ∨ c = ',' ∨ c = ' ' := by
  cases arguments with
  | nil => cases hc
  | cons first more =>
    rcases List.mem_append.mp hc with hc | hc
    · exact .inl (Identifier.isPlain_of_mem hc)
    · obtain ⟨argument, _, hc⟩ := List.mem_flatMap.mp hc
      rcases List.mem_cons.mp hc with rfl | hc
      · exact .inr (.inl rfl)
      · rcases List.mem_cons.mp hc with rfl | hc
        · exact .inr (.inr rfl)
        · exact .inl (Identifier.isPlain_of_mem hc)

/-- Nothing in a list of arguments ends or nests it. -/
theorem flat_argumentList {arguments : List TypeIdentifier} {c : Char}
    (hc : c ∈ argumentList arguments) :
    c ≠ '<' ∧ c ≠ '>' ∧ endsTypeText c = false := by
  rcases mem_argumentList hc with h | rfl | rfl
  · refine ⟨?_, ?_, not_endsTypeText_of_isPlain h⟩ <;> rintro rfl <;> exact absurd h (by decide)
  · decide
  · decide

/-- Arguments that are not nested end at the first closing bracket. -/
theorem afterClosing?_flat {inner : List Char}
    (h : ∀ c ∈ inner, c ≠ '<' ∧ c ≠ '>' ∧ endsTypeText c = false) (rest : List Char) :
    afterClosing? 1 (inner ++ '>' :: rest) = some rest := by
  induction inner with
  | nil => rfl
  | cons c inner ih =>
    obtain ⟨hopen, hclose, hends⟩ := h c List.mem_cons_self
    rw [List.cons_append, afterClosing?, if_neg hopen, if_neg hclose, hends]
    exact ih fun d hd => h d (List.mem_cons_of_mem c hd)

namespace FieldLine

/-- What follows the name of the field, up to the mark that ends the declaration. -/
def ending (line : FieldLine) : List Char :=
  if line.initialised then " =".toList else ";".toList

/-- What follows the declaration. -/
def value (line : FieldLine) : List Char :=
  if line.initialised then " null;".toList else []

/-- The name of the field and what follows it in the declaration. -/
def named (line : FieldLine) : List Char :=
  line.name.text ++ line.ending

/-- The declaration of the field with the mark that ends it. -/
def declaration (line : FieldLine) : List Char :=
  modified line.modifiers (line.type.text ++ (line.argumentsText ++ ' ' :: line.named))

/-- Without type arguments nothing stands between the type and the name. -/
theorem argumentsText_of_nil {line : FieldLine} (h : line.arguments = []) :
    line.argumentsText = [] := by
  simp [argumentsText, h]

/-- Type arguments stand between brackets. -/
theorem argumentsText_of_ne_nil {line : FieldLine} (h : line.arguments ≠ []) :
    line.argumentsText = '<' :: (argumentList line.arguments ++ ['>']) := by
  simp [argumentsText, h]

/-- The line of a field is its declaration with its value after it. -/
theorem text_eq (line : FieldLine) : line.text = line.declaration ++ line.value := by
  cases h : line.initialised <;> simp [text, declaration, modified, named, ending, value, h]

/-- The name of the field is read up to the mark that ends the declaration. -/
theorem name?_named (line : FieldLine) :
    name? isNameStart line.named = some (line.name.text, line.ending) := by
  refine line.name.name?_text line.name.isNameStart_first ?_
  unfold ending
  split <;> simp <;> decide

/-- The declaration ends with a mark that may end a field. -/
theorem afterMark?_ending (line : FieldLine) : afterMark? fieldMarks line.ending = some [] := by
  unfold ending
  split <;> rfl

/-- Blanks before the name of the field are passed over, and the name stays. -/
theorem afterBlanks_named (line : FieldLine) : afterBlanks line.named = line.named :=
  afterBlanks_cons_of_isPlain line.name.isPlain_first _

/-- The space before the name is skipped, and nothing else. -/
theorem afterBlanks_space_named (line : FieldLine) : afterBlanks (' ' :: line.named) = line.named :=
  line.afterBlanks_named

/-- From the name on the line holds plain characters, blanks and marks only. -/
theorem not_mem_named (line : FieldLine) {c : Char} (hplain : isPlain c = false)
    (hc : c ∉ [' ', '=', ';']) :
    c ∉ line.named := by
  intro hmem
  rcases List.mem_append.mp hmem with hmem | hmem
  · exact line.name.not_mem_text hplain hmem
  · have hending : ∀ d ∈ line.ending, d ∈ [' ', '=', ';'] := by
      unfold ending
      split <;> simp
    exact hc (hending c hmem)

/-- After the name of the field the declaration ends. -/
theorem afterFieldName?_named (line : FieldLine) :
    afterFieldName? (' ' :: line.named) = some [] := by
  rw [afterFieldName?, afterBlanks_space_named, name?_named]
  exact line.afterMark?_ending

/-- The type arguments of the line are read as such, whether there are any or not. -/
theorem afterOptionalTypeArguments?_argumentsText (line : FieldLine) :
    afterOptionalTypeArguments? (line.argumentsText ++ ' ' :: line.named) =
      some (' ' :: line.named) := by
  by_cases hnone : line.arguments = []
  · have hfirst : line.name.first ≠ '<' := by
      intro heq
      have hplain := line.name.isPlain_first
      rw [heq] at hplain
      exact absurd hplain (by decide)
    rw [argumentsText_of_nil hnone, List.nil_append, afterOptionalTypeArguments?,
      afterBlanks_space_named, named, Identifier.text, List.cons_append]
    split
    · rename_i heq
      exact absurd (List.cons.inj heq).1 hfirst
    · rfl
  · rw [argumentsText_of_ne_nil hnone, List.cons_append, List.append_assoc,
      afterOptionalTypeArguments?]
    exact afterClosing?_flat (fun _ hc => flat_argumentList hc) _

/-- After its type the line declares a name up to its mark. -/
theorem afterDeclared?_argumentsText (line : FieldLine) :
    afterDeclared? isNameStart fieldMarks (line.argumentsText ++ ' ' :: line.named) = some [] := by
  have hrun : afterBlankRun? (' ' :: line.named) = some line.named :=
    congrArg some line.afterBlanks_named
  rw [afterDeclared?, afterOptionalTypeArguments?_argumentsText]
  simp only [hrun, Option.bind_some, name?_named]
  exact line.afterMark?_ending

/-- The type of the line is read as a type name. -/
theorem typeName?_type (line : FieldLine) :
    typeName? (line.type.text ++ (line.argumentsText ++ ' ' :: line.named)) =
      some (line.type.text, line.argumentsText ++ ' ' :: line.named) := by
  refine line.type.name?_text line.type.capital ?_
  unfold argumentsText
  split <;> simp <;> decide

end FieldLine

/-- A modifier is read where it is written. -/
theorem modifier?_word (modifier : Modifier) (text : List Char) :
    modifier? (modifier.word ++ ' ' :: text) = some (modifier.word, afterBlanks text) := by
  cases modifier <;> rfl

/-- Modifiers are words of plain characters. -/
theorem Modifier.isPlain_of_mem {modifier : Modifier} {c : Char} (hc : c ∈ modifier.word) :
    isPlain c = true := by
  have hall : modifier.word.all isPlain = true := by cases modifier <;> decide
  exact List.all_eq_true.mp hall c hc

/-- The words of modifiers are those that may stand before a field. -/
theorem Modifier.word_mem (modifier : Modifier) : modifier.word ∈ fieldModifiers := by
  cases modifier <;> decide

/-- No modifier is the empty word. -/
theorem Modifier.word_ne_nil (modifier : Modifier) : modifier.word ≠ [] := by
  cases modifier <;> decide

/-- A modifier stands before the others with a space between. -/
theorem modified_cons (modifier : Modifier) (list : List Modifier) (rest : List Char) :
    modified (modifier :: list) rest = modifier.word ++ ' ' :: modified list rest := by
  simp [modified]

/-- A line with modifiers does not start with a blank. -/
theorem afterBlanks_modified (list : List Modifier) {c : Char} (hc : isPlain c = true)
    (rest : List Char) :
    afterBlanks (modified list (c :: rest)) = modified list (c :: rest) := by
  cases list with
  | nil => exact afterBlanks_cons_of_isPlain hc rest
  | cons modifier list =>
    obtain ⟨d, word, hword⟩ := List.exists_cons_of_ne_nil modifier.word_ne_nil
    have hd : isPlain d = true := Modifier.isPlain_of_mem (hword ▸ List.mem_cons_self)
    rw [modified_cons, hword, List.cons_append]
    exact afterBlanks_cons_of_isPlain hd _

/-- Modifiers are read as they are written, up to a character that starts none. The induction is on
the modifiers; each of them takes up characters, so the count does not run out. -/
theorem leadingModifiers_modified (list : List Modifier) {c : Char} (hc : isPlain c = true)
    (hstart : ∀ word ∈ fieldModifiers, word.head? ≠ some c) (rest : List Char) {count : Nat}
    (hcount : (modified list (c :: rest)).length ≤ count) :
    leadingModifiers count (modified list (c :: rest)) = (list.map Modifier.word, c :: rest) := by
  induction list generalizing count with
  | nil => exact leadingModifiers_of_none (modifier?_cons_eq_none hstart rest) count
  | cons modifier list ih =>
    have hread : modifier? (modified (modifier :: list) (c :: rest)) =
        some (modifier.word, modified list (c :: rest)) := by
      rw [modified_cons, modifier?_word, afterBlanks_modified list hc]
    have hlength := length_lt_of_modifier?_eq_some hread
    obtain ⟨smaller, rfl⟩ : ∃ smaller, count = smaller + 1 := ⟨count - 1, by omega⟩
    have hrest := ih (show (modified list (c :: rest)).length ≤ smaller by omega)
    simp only [leadingModifiers, hread, hrest, List.map_cons]

/-- The modifiers of a line are read in their order, up to a word that starts like none of them. -/
theorem modifiers_modified (list : List Modifier) {c : Char} (hc : isPlain c = true)
    (hstart : ∀ word ∈ fieldModifiers, word.head? ≠ some c) (rest : List Char) :
    modifiers (modified list (c :: rest)) = (list.map Modifier.word, c :: rest) := by
  rw [modifiers_eq le_rfl]
  exact leadingModifiers_modified list hc hstart rest le_rfl

/-- No modifier has a capital letter, so none of them starts as a type does. -/
theorem TypeIdentifier.first_not_mem (type : TypeIdentifier) {word : List Char}
    (hword : word ∈ fieldModifiers) :
    type.first ∉ word := by
  have hsmall : fieldModifiers.all (fun word => word.all fun c => !c.isUpper) = true := by decide
  intro hmem
  have hfirst := List.all_eq_true.mp (List.all_eq_true.mp hsmall word hword) type.first hmem
  rw [type.capital] at hfirst
  cases hfirst

/-- No modifier starts with a capital letter. -/
theorem TypeIdentifier.head?_ne_first (type : TypeIdentifier) :
    ∀ word ∈ fieldModifiers, word.head? ≠ some type.first :=
  fun _ hword hhead => type.first_not_mem hword (List.mem_of_head? hhead)

/-- **The declaration on a line is read as it is written.** -/
theorem fieldDeclaration_declaration (line : FieldLine) :
    fieldDeclaration [] line.declaration = some (line.field, []) := by
  have hmodifiers : modifiers line.declaration =
      (line.modifiers.map Modifier.word,
        line.type.text ++ (line.argumentsText ++ ' ' :: line.named)) :=
    modifiers_modified line.modifiers line.type.isPlain_first line.type.head?_ne_first _
  simp only [fieldDeclaration, hmodifiers, line.typeName?_type, line.afterDeclared?_argumentsText]
  rfl

/-! ## Reading back arguments -/

/-- Type names see only whether a word may start before them. -/
theorem local_typeMention : typeMention.Local := by
  intro before before' text h
  rw [typeMention, typeMention, h]

/-- A type name starts a word. -/
theorem startsWords_typeMention : typeMention.StartsWords := by
  intro before text h
  rw [typeMention, h]
  rfl

/-- **The types in a list of arguments are its arguments.** -/
theorem occurrences_typeMention_argumentList (arguments : List TypeIdentifier) :
    occurrences typeMention (argumentList arguments) = arguments.map (·.text) := by
  cases arguments with
  | nil => rfl
  | cons first more =>
    induction more generalizing first with
    | nil =>
      have hfound : typeMention [] (first.text ++ []) = some (first.text, []) :=
        first.name?_text first.capital (by simp)
      rw [argumentList, List.flatMap_nil]
      exact occurrences_eq_singleton (by simp [first.text_ne_nil]) hfound
    | cons second more ih =>
      have hshape : argumentList (first :: second :: more) =
          first.text ++ ',' :: (' ' :: argumentList (second :: more)) := by
        simp [argumentList]
      have hfound : typeMention [] (first.text ++ ',' :: (' ' :: argumentList (second :: more))) =
          some (first.text, ',' :: (' ' :: argumentList (second :: more))) :=
        first.name?_text first.capital (by simp; decide)
      rw [hshape, startsWords_typeMention.occurrences_found_word local_typeMention first.text_ne_nil
        (fun c hc => isWordChar_of_isPlain (Identifier.isPlain_of_mem hc)) (by decide) hfound,
        local_typeMention.occurrences_cons (by decide) rfl, ih]
      rfl

end ClassAtlas.Source
