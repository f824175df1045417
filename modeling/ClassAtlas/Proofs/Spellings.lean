import ClassAtlas.Proofs.Identifiers
import ClassAtlas.Proofs.Overlaps
import Mathlib.Data.List.TakeWhile

/-!
# Spellings

What a reader accepts, said as a way of writing: for each reader that declarations and references
are read with, the text that it reads is put together from blanks, names, type arguments and marks.
For a declared name this goes both ways, so that whether a text declares a name of some type depends
on the declaration itself and not on what follows it.
-/

namespace ClassAtlas.Source

open ClassAtlas.Text

/-! ## Characters -/

/-- The code points of the blanks. -/
def blankCodes : List Nat :=
  [9, 10, 11, 12, 13, 0x20, 0x85, 0xA0, 0x1680, 0x2000, 0x2001, 0x2002, 0x2003, 0x2004, 0x2005,
    0x2006, 0x2007, 0x2008, 0x2009, 0x200A, 0x2028, 0x2029, 0x202F, 0x205F, 0x3000]

/-- The blanks are the characters with the codes of the list. -/
theorem toNat_mem_blankCodes {c : Char} (h : isBlank c = true) : c.toNat ∈ blankCodes := by
  by_cases hspace : c = ' '
  · subst hspace
    decide
  · simp only [isBlank, hspace, decide_false, Bool.false_or, Bool.or_eq_true, Bool.and_eq_true,
      decide_eq_true_eq] at h
    simp only [blankCodes, List.mem_cons, List.not_mem_nil, or_false]
    omega

/-- A blank is no part of a name. -/
theorem not_isNameChar_of_isBlank {c : Char} (h : isBlank c = true) : isNameChar c = false := by
  have hall : (blankCodes.all fun code => !isNameChar (Char.ofNat code)) = true := by decide +kernel
  have hcode := List.all_eq_true.mp hall c.toNat (toNat_mem_blankCodes h)
  rw [Char.ofNat_toNat] at hcode
  simpa using hcode

/-- No blank is part of a word. -/
theorem not_isWordChar_of_isBlank {c : Char} (h : isBlank c = true) : isWordChar c = false := by
  have hname := not_isNameChar_of_isBlank h
  rw [isNameChar, Bool.or_eq_false_iff] at hname
  exact hname.1

/-- No character of a name is blank. -/
theorem not_isBlank_of_isNameChar {c : Char} (h : isNameChar c = true) : isBlank c = false := by
  rw [Bool.eq_false_iff]
  intro hblank
  rw [not_isNameChar_of_isBlank hblank] at h
  cases h

/-- Only a dollar sign is part of a name and of no word. -/
theorem eq_dollar_of_isNameChar {c : Char} (hname : isNameChar c = true)
    (hword : isWordChar c = false) : c = '$' := by
  simpa [isNameChar, hword] using hname

/-- A name starts like that of a type or like that of a variable. -/
theorem isNameStart_iff {c : Char} : isNameStart c = true ↔ isTypeStart c = true ∨
    isLowerStart c = true := by
  delta isNameStart isTypeStart isLowerStart Char.isAlpha
  simp only [Bool.or_eq_true, or_assoc]

/-- What starts a type name may start a name. -/
theorem isNameStart_of_isTypeStart {c : Char} (h : isTypeStart c = true) : isNameStart c = true :=
  isNameStart_iff.mpr (.inl h)

/-- What starts the name of a variable may start a name. -/
theorem isNameStart_of_isLowerStart {c : Char} (h : isLowerStart c = true) : isNameStart c = true :=
  isNameStart_iff.mpr (.inr h)

/-- The name of a variable does not start like that of a type. -/
theorem not_isTypeStart_of_isLowerStart {c : Char} (h : isLowerStart c = true) :
    isTypeStart c = false := by
  rw [Bool.eq_false_iff]
  intro hupper
  simp only [isLowerStart, Bool.or_eq_true, decide_eq_true_eq] at h
  rcases h with (h | rfl) | rfl
  · delta isTypeStart Char.isUpper at hupper
    delta Char.isLower at h
    simp only [Bool.and_eq_true, decide_eq_true_eq, UInt32.le_iff_toNat_le, ge_iff_le] at h hupper
    have hcodes : 'Z'.val.toNat = 90 ∧ 'a'.val.toNat = 97 := by decide
    omega
  · exact absurd hupper (by decide)
  · exact absurd hupper (by decide)

/-- What may start a name may stand in it. -/
theorem isNameChar_of_isNameStart {c : Char} (h : isNameStart c = true) : isNameChar c = true := by
  simp only [isNameStart, Bool.or_eq_true, decide_eq_true_eq] at h
  rcases h with (h | rfl) | rfl
  · exact isNameChar_of_isPlain (by simp [isPlain, Char.isAlphanum, h])
  · exact isNameChar_of_isPlain (by decide)
  · rfl

/-- A text of blanks. -/
def IsGap (text : List Char) : Prop :=
  ∀ c ∈ text, isBlank c = true

/-- A name whose first character is in the given class. -/
def IsName (start : Char → Bool) (name : List Char) : Prop :=
  ∃ first more, name = first :: more ∧ start first = true ∧ ∀ c ∈ more, isNameChar c = true

/-- All characters of a name may stand in a name, the first one included. -/
theorem IsName.nameChars {start : Char → Bool} (hstart : ∀ c, start c = true → isNameStart c = true)
    {name : List Char} (h : IsName start name) : ∀ c ∈ name, isNameChar c = true := by
  obtain ⟨first, more, rfl, hfirst, hmore⟩ := h
  intro c hc
  rcases List.mem_cons.mp hc with rfl | hc
  · exact isNameChar_of_isNameStart (hstart c hfirst)
  · exact hmore c hc

/-- All characters of a type name may stand in a name. -/
theorem IsName.nameChars_of_type {name : List Char} (h : IsName isTypeStart name) :
    ∀ c ∈ name, isNameChar c = true :=
  h.nameChars fun _ => isNameStart_of_isTypeStart

/-- The test for type names says what a type name is. -/
theorem isTypeName_iff {name : List Char} : isTypeName name = true ↔ IsName isTypeStart name := by
  cases name with
  | nil => simp [isTypeName, IsName]
  | cons c rest => simp [isTypeName, IsName]

/-! ## Readers -/

/-- A text is cut in front of the first character that is not in a class. -/
theorem takeWhile_dropWhile_eq_iff {p : Char → Bool} {text run rest : List Char} :
    text.takeWhile p = run ∧ text.dropWhile p = rest ↔
      (∀ c ∈ run, p c = true) ∧ text = run ++ rest ∧ ∀ c ∈ rest.head?, p c = false := by
  constructor
  · rintro ⟨rfl, rfl⟩
    refine ⟨fun c hc => List.mem_takeWhile_imp hc, List.takeWhile_append_dropWhile.symm,
      fun c hc => ?_⟩
    have hstop := List.head?_dropWhile_not p text
    rwa [Option.mem_def.mp hc] at hstop
  · rintro ⟨hrun, rfl, hrest⟩
    have hstop : rest.takeWhile p = [] ∧ rest.dropWhile p = rest := by
      cases rest with
      | nil => exact ⟨rfl, rfl⟩
      | cons c rest => simp [hrest c rfl]
    rw [List.takeWhile_append_of_pos hrun, List.dropWhile_append_of_pos hrun, hstop.1, hstop.2,
      List.append_nil]
    exact ⟨rfl, rfl⟩

/-- A text is what remains after the blanks, with the blanks before it. -/
theorem exists_gap (text : List Char) :
    ∃ gap, IsGap gap ∧ text = gap ++ afterBlanks text ∧
      ∀ c ∈ (afterBlanks text).head?, isBlank c = false :=
  ⟨text.takeWhile isBlank, takeWhile_dropWhile_eq_iff.mp ⟨rfl, rfl⟩⟩

/-- Blanks are skipped up to the first character that is none. -/
theorem afterBlanks_append {gap rest : List Char} (hgap : IsGap gap)
    (hrest : ∀ c ∈ rest.head?, isBlank c = false) :
    afterBlanks (gap ++ rest) = rest :=
  (takeWhile_dropWhile_eq_iff.mpr ⟨hgap, rfl, hrest⟩).2

/-- A run of blanks is not empty, and it is skipped to its end. -/
theorem afterBlankRun?_eq_some_iff {text rest : List Char} :
    afterBlankRun? text = some rest ↔
      ∃ gap, gap ≠ [] ∧ IsGap gap ∧ text = gap ++ rest ∧ ∀ c ∈ rest.head?, isBlank c = false := by
  constructor
  · intro h
    cases text with
    | nil => cases h
    | cons c text =>
      rw [afterBlankRun?] at h
      split at h
      · rename_i hc
        obtain rfl := Option.some.inj h
        obtain ⟨gap, hgap, hsplit, hrest⟩ := exists_gap text
        refine ⟨c :: gap, List.cons_ne_nil c gap, List.forall_mem_cons.mpr ⟨hc, hgap⟩, ?_, hrest⟩
        rw [List.cons_append, ← hsplit]
      · cases h
  · rintro ⟨gap, hne, hgap, rfl, hrest⟩
    obtain ⟨c, more, rfl⟩ := List.exists_cons_of_ne_nil hne
    obtain ⟨hc, hmore⟩ := List.forall_mem_cons.mp hgap
    rw [List.cons_append, afterBlankRun?, if_pos hc, afterBlanks_append hmore hrest]

/-- A name is read up to the first character that may not stand in it. -/
theorem name?_eq_some_iff {start : Char → Bool} {text name rest : List Char} :
    name? start text = some (name, rest) ↔
      IsName start name ∧ text = name ++ rest ∧ ∀ c ∈ rest.head?, isNameChar c = false := by
  constructor
  · intro h
    cases text with
    | nil => cases h
    | cons c text =>
      rw [name?] at h
      split at h
      · rename_i hc
        obtain ⟨rfl, hdrop⟩ := Prod.mk.inj (Option.some.inj h)
        obtain ⟨hmore, hsplit, hrest⟩ := takeWhile_dropWhile_eq_iff.mp ⟨rfl, hdrop⟩
        refine ⟨⟨c, _, rfl, hc, hmore⟩, ?_, hrest⟩
        rw [List.cons_append, ← hsplit]
      · cases h
  · rintro ⟨⟨c, more, rfl, hc, hmore⟩, rfl, hrest⟩
    obtain ⟨htake, hdrop⟩ := takeWhile_dropWhile_eq_iff.mpr ⟨hmore, rfl, hrest⟩
    rw [List.cons_append, name?, if_pos hc, htake, hdrop]

/-- A mark is read with the blanks before it. -/
theorem afterMark?_eq_some_iff {marks text rest : List Char} :
    afterMark? marks text = some rest ↔
      ∃ gap mark, IsGap gap ∧ mark ∈ marks ∧ isBlank mark = false ∧ text = gap ++ mark :: rest := by
  constructor
  · intro h
    obtain ⟨gap, hgap, hsplit, hhead⟩ := exists_gap text
    rw [afterMark?] at h
    cases hafter : afterBlanks text with
    | nil =>
      rw [hafter] at h
      cases h
    | cons mark more =>
      rw [hafter] at h hsplit hhead
      simp only at h
      split at h
      · rename_i hmark
        obtain rfl := Option.some.inj h
        exact ⟨gap, mark, hgap, hmark, hhead mark rfl, hsplit⟩
      · cases h
  · rintro ⟨gap, mark, hgap, hmem, hblank, rfl⟩
    have hhead : ∀ c ∈ (mark :: rest).head?, isBlank c = false := by
      rintro c hc
      obtain rfl := Option.some.inj hc
      exact hblank
    rw [afterMark?, afterBlanks_append hgap hhead]
    exact if_pos hmem

/-! ## Type arguments -/

/-- A list of type arguments in its angle brackets, all of it and nothing else. -/
def IsArgumentList (list : List Char) : Prop :=
  afterTypeArguments? list = some []

/-- What follows a closing bracket makes no difference. -/
theorem afterClosing?_append {opened : Nat} {text rest : List Char}
    (h : afterClosing? opened text = some rest) (more : List Char) :
    afterClosing? opened (text ++ more) = some (rest ++ more) := by
  induction text generalizing opened with
  | nil => cases h
  | cons c text ih =>
    rw [afterClosing?] at h
    rw [List.cons_append, afterClosing?]
    split_ifs at h ⊢
    · exact ih h
    · obtain rfl := Option.some.inj h
      rfl
    · exact ih h
    · exact ih h

/-- What is read up to the closing bracket closes it by itself. -/
theorem exists_of_afterClosing? {opened : Nat} {text rest : List Char}
    (h : afterClosing? opened text = some rest) :
    ∃ inside, text = inside ++ rest ∧ afterClosing? opened inside = some [] := by
  induction text generalizing opened with
  | nil => cases h
  | cons c text ih =>
    rw [afterClosing?] at h
    split_ifs at h with hopen hdeep hclose hlast hends
    · obtain ⟨inside, rfl, hinside⟩ := ih h
      exact ⟨c :: inside, rfl, by rw [afterClosing?, if_pos hopen, if_pos hdeep, hinside]⟩
    · obtain rfl := Option.some.inj h
      exact ⟨[c], rfl, by rw [afterClosing?, if_neg hopen, if_pos hclose, if_pos hlast]⟩
    · obtain ⟨inside, rfl, hinside⟩ := ih h
      exact ⟨c :: inside,
        rfl, by rw [afterClosing?, if_neg hopen, if_pos hclose, if_neg hlast, hinside]⟩
    · obtain ⟨inside, rfl, hinside⟩ := ih h
      exact ⟨c :: inside,
        rfl, by rw [afterClosing?, if_neg hopen, if_neg hclose, if_neg hends, hinside]⟩

/-- Type arguments start with a bracket, and the rest closes it. -/
theorem IsArgumentList.exists_eq {list : List Char} (h : IsArgumentList list) :
    ∃ inside, list = '<' :: inside ∧ afterClosing? 1 inside = some [] := by
  unfold IsArgumentList afterTypeArguments? at h
  split at h
  · exact ⟨_, rfl, h⟩
  · cases h

/-- Type arguments are read to their end, whatever follows. -/
theorem IsArgumentList.afterTypeArguments? {list : List Char} (h : IsArgumentList list)
    (rest : List Char) :
    afterTypeArguments? (list ++ rest) = some rest := by
  obtain ⟨inside, rfl, hinside⟩ := h.exists_eq
  exact afterClosing?_append hinside rest

/-- Type arguments that may be missing are either there, after blanks, or not. -/
theorem afterOptionalTypeArguments?_cases {text rest : List Char}
    (h : afterOptionalTypeArguments? text = some rest) :
    rest = text ∨ ∃ gap list, IsGap gap ∧ IsArgumentList list ∧ text = gap ++ list ++ rest := by
  obtain ⟨gap, hgap, hsplit, -⟩ := exists_gap text
  unfold afterOptionalTypeArguments? at h
  split at h
  · rename_i after hafter
    obtain ⟨inside, rfl, hinside⟩ := exists_of_afterClosing? h
    rw [hafter] at hsplit
    refine .inr ⟨gap, '<' :: inside, hgap, hinside, ?_⟩
    rw [List.append_assoc, List.cons_append, ← hsplit]
  · exact .inl (Option.some.inj h).symm

/-- Type arguments are read together with the blanks before them. -/
theorem IsArgumentList.afterOptionalTypeArguments? {gap list : List Char} (hgap : IsGap gap)
    (hlist : IsArgumentList list) (rest : List Char) :
    afterOptionalTypeArguments? (gap ++ list ++ rest) = some rest := by
  obtain ⟨inside, rfl, hinside⟩ := hlist.exists_eq
  have hhead : ∀ c ∈ ('<' :: inside ++ rest).head?, isBlank c = false := by
    rintro c hc
    obtain rfl := Option.some.inj hc
    decide
  rw [Source.afterOptionalTypeArguments?, List.append_assoc, afterBlanks_append hgap hhead]
  exact afterClosing?_append hinside rest

/-! ## Declared names -/

/-- A type and a name declared with it, before one of the marks. The name starts with a character of
the class. -/
def typedName (start : Char → Bool) (marks : List Char) : Recogniser (List Char) :=
    fun before text =>
  match typeMention before text with
  | none => none
  | some (type, rest) => (afterDeclared? start marks rest).map fun after => (type, after)

/-- A declaration is a typed name that starts with a lower-case character. -/
theorem declarationBefore_eq (marks : List Char) :
    declarationBefore marks = typedName isLowerStart marks := rfl

/-- How a name is declared: its type, the type arguments with the blanks before them if there are
any, the name and the mark after it. -/
structure Spelling (start : Char → Bool) (marks : List Char) where
  type : List Char
  arguments : List Char
  gap : List Char
  name : List Char
  space : List Char
  mark : Char
  type_isName : IsName isTypeStart type
  arguments_listed : arguments = [] ∨ ∃ blanks list, IsGap blanks ∧ IsArgumentList list ∧
      arguments = blanks ++ list
  gap_ne_nil : gap ≠ []
  gap_isGap : IsGap gap
  name_isName : IsName start name
  space_isGap : IsGap space
  mark_mem : mark ∈ marks

namespace Spelling

variable {start : Char → Bool} {marks : List Char}

/-- The declared name from its type to the mark. -/
def text (spelling : Spelling start marks) : List Char :=
  spelling.type ++
    (spelling.arguments ++ (spelling.gap ++ (spelling.name ++ (spelling.space ++ [spelling.mark]))))

/-- The text of a spelling, piece by piece, with something after it. -/
theorem text_append (spelling : Spelling start marks) (rest : List Char) :
    spelling.text ++ rest =
      spelling.type ++ (spelling.arguments ++ (spelling.gap ++ (spelling.name ++
        (spelling.space ++ spelling.mark :: rest)))) := by
  simp [text]

/-- No spelling is empty. -/
theorem text_ne_nil (spelling : Spelling start marks) : spelling.text ≠ [] := by
  simp [text]

/-- The same spelling, where more names or marks are allowed. -/
def widen {start' : Char → Bool} {marks' : List Char} (spelling : Spelling start marks)
    (hname : IsName start' spelling.name) (hmark : spelling.mark ∈ marks') :
    Spelling start' marks' :=
  { spelling with name_isName := hname, mark_mem := hmark }

end Spelling

/-- A type is mentioned where its name stands at the start of a word and ends there. -/
theorem typeMention_eq_some_iff {before text type rest : List Char} :
    typeMention before text = some (type, rest) ↔
      atWordStart before = true ∧ IsName isTypeStart type ∧ text = type ++ rest ∧
        ∀ c ∈ rest.head?, isNameChar c = false := by
  rw [typeMention]
  split
  · rename_i h
    rw [typeName?, name?_eq_some_iff, and_iff_right h]
  · rename_i h
    exact iff_of_false (by simp) fun hall => h hall.1

section TypedNames

variable {start : Char → Bool} {marks before text type rest : List Char}

/-- What is read as a declared name is spelled like one. -/
theorem exists_spelling_of_typedName (h : typedName start marks before text = some (type, rest)) :
    atWordStart before = true ∧
      ∃ spelling : Spelling start marks, spelling.type = type ∧ text = spelling.text ++ rest := by
  rw [typedName] at h
  split at h
  · cases h
  · rename_i type' rest' htype
    obtain ⟨hword, hname, rfl, -⟩ := typeMention_eq_some_iff.mp htype
    obtain ⟨after, hdeclared, heq⟩ := Option.map_eq_some_iff.mp h
    obtain ⟨rfl, rfl⟩ := Prod.mk.inj heq
    rw [afterDeclared?] at hdeclared
    split at hdeclared
    · cases hdeclared
    · rename_i afterList hlist
      split at hdeclared
      · cases hdeclared
      · rename_i name afterName hbind
        obtain ⟨afterGap, hgap, hread⟩ := Option.bind_eq_some_iff.mp hbind
        obtain ⟨gap, hne, hblank, rfl, -⟩ := afterBlankRun?_eq_some_iff.mp hgap
        obtain ⟨hstart, rfl, -⟩ := name?_eq_some_iff.mp hread
        obtain ⟨space, mark, hspace, hmark, -, rfl⟩ := afterMark?_eq_some_iff.mp hdeclared
        refine ⟨hword, ?_⟩
        rcases afterOptionalTypeArguments?_cases hlist with rfl
          | ⟨blanks, list, hblanks, harguments, rfl⟩
        · exact ⟨⟨_, [], gap, name, space, mark, hname, .inl rfl, hne, hblank, hstart, hspace,
            hmark⟩, rfl, by simp [Spelling.text]⟩
        · exact ⟨⟨_, blanks ++ list, gap, name, space, mark, hname,
            .inr ⟨blanks, list, hblanks, harguments, rfl⟩, hne, hblank, hstart, hspace, hmark⟩,
              rfl, by simp [Spelling.text]⟩

end TypedNames

/-! What is spelled like a declared name is read as one, whatever follows it. The readers are
followed in the reverse order, from the mark back to the type. -/

namespace Spelling

variable {start : Char → Bool} {marks : List Char} (spelling : Spelling start marks)

/-- The text from the space before the mark on. -/
def fromSpace (rest : List Char) : List Char :=
  spelling.space ++ spelling.mark :: rest

/-- The text from the gap before the name on. -/
def fromGap (rest : List Char) : List Char :=
  spelling.gap ++ (spelling.name ++ spelling.fromSpace rest)

/-- The type and its arguments stand before the blanks of a spelling. -/
theorem text_append_eq (rest : List Char) :
    spelling.text ++ rest = spelling.type ++ (spelling.arguments ++ spelling.fromGap rest) :=
  spelling.text_append rest

/-- At least one blank stands between the type and the name. -/
theorem head?_gap (rest : List Char) : ∀ c ∈ (spelling.fromGap rest).head?, isBlank c = true := by
  obtain ⟨blank, blanks, hgap⟩ := List.exists_cons_of_ne_nil spelling.gap_ne_nil
  intro c hc
  rw [fromGap, hgap] at hc
  obtain rfl := Option.some.inj hc
  exact spelling.gap_isGap blank (by rw [hgap]; exact List.mem_cons_self)

section Reading

variable (hstart : ∀ c, start c = true → isNameStart c = true)
  (hmarks : ∀ mark ∈ marks, isBlank mark = false ∧ isNameChar mark = false)

include hmarks in
/-- After the name the mark is read with the blanks before it. -/
theorem afterMark?_fromSpace (rest : List Char) :
    afterMark? marks (spelling.fromSpace rest) = some rest :=
  afterMark?_eq_some_iff.mpr
    ⟨_, _, spelling.space_isGap, spelling.mark_mem, (hmarks _ spelling.mark_mem).1, rfl⟩

include hmarks in
/-- The name of a spelling is read up to the blanks or the mark after it. -/
theorem name?_fromSpace (rest : List Char) :
    name? start (spelling.name ++ spelling.fromSpace rest) =
      some (spelling.name, spelling.fromSpace rest) := by
  refine name?_eq_some_iff.mpr ⟨spelling.name_isName, rfl, fun c hc => ?_⟩
  rw [fromSpace] at hc
  cases hspace : spelling.space with
  | nil =>
    rw [hspace] at hc
    obtain rfl := Option.some.inj hc
    exact (hmarks _ spelling.mark_mem).2
  | cons d space =>
    rw [hspace] at hc
    obtain rfl := Option.some.inj hc
    exact not_isNameChar_of_isBlank
      (spelling.space_isGap d (by rw [hspace]; exact List.mem_cons_self))

include hstart in
/-- The name of a spelling starts with a character of names. -/
theorem head?_name (rest : List Char) :
    ∀ c ∈ (spelling.name ++ spelling.fromSpace rest).head?, isNameChar c = true := by
  obtain ⟨first, more, hname, hfirst, -⟩ := spelling.name_isName
  intro c hc
  rw [hname] at hc
  obtain rfl := Option.some.inj hc
  exact isNameChar_of_isNameStart (hstart first hfirst)

include hstart in
/-- The blanks before the name are skipped to their end. -/
theorem afterBlankRun?_fromGap (rest : List Char) :
    afterBlankRun? (spelling.fromGap rest) = some (spelling.name ++ spelling.fromSpace rest) :=
  afterBlankRun?_eq_some_iff.mpr ⟨_, spelling.gap_ne_nil, spelling.gap_isGap, rfl,
    fun c hc => not_isBlank_of_isNameChar (spelling.head?_name hstart rest c hc)⟩

/-- The type arguments are either there and are passed, or the next character that is no blank
starts the name. -/
theorem afterOptionalTypeArguments?_arguments (hstart : ∀ c, start c = true → isNameStart c = true)
    (rest : List Char) :
    afterOptionalTypeArguments? (spelling.arguments ++ spelling.fromGap rest) =
      some (spelling.fromGap rest) := by
  rcases spelling.arguments_listed with hnone | ⟨blanks, list, hblanks, hlist, harguments⟩
  · have hhead := spelling.head?_name hstart rest
    have hname : afterBlanks (spelling.fromGap rest) = spelling.name ++ spelling.fromSpace rest :=
      afterBlanks_append spelling.gap_isGap fun c hc => not_isBlank_of_isNameChar (hhead c hc)
    rw [hnone, List.nil_append, afterOptionalTypeArguments?, hname]
    split
    · rename_i heq
      exact absurd (hhead '<' (by rw [heq]; rfl)) (by decide)
    · rfl
  · rw [harguments]
    exact hlist.afterOptionalTypeArguments? hblanks _

/-- The type name ends where its arguments or the blanks start. -/
theorem head?_arguments (rest : List Char) :
    ∀ c ∈ (spelling.arguments ++ spelling.fromGap rest).head?, isNameChar c = false := by
  intro c hc
  rcases spelling.arguments_listed with hnone | ⟨blanks, list, hblanks, hlist, harguments⟩
  · rw [hnone] at hc
    exact not_isNameChar_of_isBlank (spelling.head?_gap rest c hc)
  · obtain ⟨inside, hopen, -⟩ := hlist.exists_eq
    rw [harguments] at hc
    cases blanks with
    | nil =>
      rw [hopen] at hc
      obtain rfl := Option.some.inj hc
      decide
    | cons d blanks =>
      obtain rfl := Option.some.inj hc
      exact not_isNameChar_of_isBlank (hblanks d List.mem_cons_self)

include hstart hmarks in
/-- A spelling at the start of a word is read as its type. -/
theorem typedName_text {before : List Char} (hword : atWordStart before = true) (rest : List Char) :
    typedName start marks before (spelling.text ++ rest) = some (spelling.type, rest) := by
  have hmention : typeMention before (spelling.text ++ rest) =
      some (spelling.type, spelling.arguments ++ spelling.fromGap rest) :=
    typeMention_eq_some_iff.mpr
      ⟨hword, spelling.type_isName, spelling.text_append_eq rest, spelling.head?_arguments rest⟩
  have hdeclared :
      afterDeclared? start marks (spelling.arguments ++ spelling.fromGap rest) = some rest := by
    simp only [afterDeclared?, spelling.afterOptionalTypeArguments?_arguments hstart,
      spelling.afterBlankRun?_fromGap hstart, Option.bind_some, spelling.name?_fromSpace hmarks,
      spelling.afterMark?_fromSpace hmarks]
  rw [typedName, hmention]
  simp only [hdeclared, Option.map_some]

end Reading

end Spelling

/-! ## Creations and member accesses -/

/-- An object creation is spelled with the keyword, blanks and the type. -/
theorem exists_of_creation {before text type rest : List Char}
    (h : creation before text = some (type, rest)) :
    atWordStart before = true ∧ ∃ gap, gap ≠ [] ∧ IsGap gap ∧ IsName isTypeStart type ∧
      text = ['n', 'e', 'w'] ++ (gap ++ (type ++ rest)) := by
  obtain ⟨after, hkeyword, htype⟩ := Option.bind_eq_some_iff.mp h
  rw [afterKeyword?] at hkeyword
  split at hkeyword
  · rename_i hword
    obtain ⟨afterWord, hnew, hblanks⟩ := Option.bind_eq_some_iff.mp hkeyword
    obtain ⟨gap, hne, hgap, rfl, -⟩ := afterBlankRun?_eq_some_iff.mp hblanks
    obtain ⟨hname, rfl, -⟩ := name?_eq_some_iff.mp htype
    exact ⟨hword, gap, hne, hgap, hname, (List.isPrefixOf?_eq_some_iff_append_eq.mp hnew).symm⟩
  · cases hkeyword

/-- A member access is spelled with the type, a dot and the first character of the member, with
blanks between them. -/
theorem exists_of_memberAccess {before text type rest : List Char}
    (h : memberAccess before text = some (type, rest)) :
    atWordStart before = true ∧ ∃ space gap c, IsGap space ∧ IsGap gap ∧ isNameStart c = true ∧
      IsName isTypeStart type ∧ text = type ++ (space ++ ('.' :: (gap ++ c :: rest))) := by
  rw [memberAccess] at h
  split at h
  · cases h
  · rename_i type' afterType htype
    obtain ⟨hword, hname, rfl, -⟩ := typeMention_eq_some_iff.mp htype
    split at h
    · rename_i c after hdot
      split at h
      · rename_i hc
        obtain ⟨rfl, rfl⟩ := Prod.mk.inj (Option.some.inj h)
        obtain ⟨afterDot, hmark, hblanks⟩ := Option.map_eq_some_iff.mp hdot
        obtain ⟨space, mark, hspace, hmem, -, rfl⟩ := afterMark?_eq_some_iff.mp hmark
        obtain rfl := List.mem_singleton.mp hmem
        obtain ⟨gap, hgap, hsplit, -⟩ := exists_gap afterDot
        rw [hblanks] at hsplit
        exact ⟨hword, space, gap, c, hspace, hgap, hc, hname, by rw [hsplit]⟩
      · cases h
    · cases h

end ClassAtlas.Source
