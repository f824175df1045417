import ClassAtlas.Proofs.FieldMarks
import ClassAtlas.Proofs.Outlines
import ClassAtlas.Proofs.ReferenceScan
import Mathlib.Data.List.Induction

/-!
# Fields and references

Fields are read from the outline with its parameters masked, references from the whole text. A field
in the outline stands in the text in the same way unless the outline drops a block in the middle of
it, and the search for references reads it there unless the name of the field is capitalised or an
earlier declaration reaches into it. So all types of fields are among the references but for these
three exceptions, and each of them occurs.
-/

namespace ClassAtlas.Source

open ClassAtlas.Text

/-! ## Where the outline comes from -/

/-- Up to a later place the outline grows at most by the number of characters between. -/
theorem length_outlineFrom_take_le (limit : Nat) (text : List Char) {place later : Nat}
    (h : place ≤ later) :
    (outlineFrom limit 0 (text.take place)).length ≤
      (outlineFrom limit 0 (text.take later)).length ∧
      (outlineFrom limit 0 (text.take later)).length ≤
        (outlineFrom limit 0 (text.take place)).length + (later - place) := by
  have htake : text.take later = text.take place ++ (text.drop place).take (later - place) := by
    rw [← List.take_add]
    congr 1
    omega
  have hpiece := (outlineFrom_sublist limit (depthAfter '{' '}' 0 (text.take place))
    ((text.drop place).take (later - place))).length_le
  have hlength : ((text.drop place).take (later - place)).length ≤ later - place :=
    List.length_take_le _ _
  rw [htake, outlineFrom_append, List.length_append]
  omega

/-- A piece of the text of which nothing is dropped is a piece of the outline. -/
theorem outlineFrom_append_piece {limit : Nat} {front piece : List Char}
    (h : (outlineFrom limit 0 (front ++ piece)).length =
      (outlineFrom limit 0 front).length + piece.length)
    (back : List Char) :
    ∃ later, outlineFrom limit 0 (front ++ (piece ++ back)) =
      outlineFrom limit 0 front ++ (piece ++ later) := by
  have hkept : outlineFrom limit (depthAfter '{' '}' 0 front) piece = piece := by
    refine (outlineFrom_sublist _ _ _).eq_of_length ?_
    rw [outlineFrom_append, List.length_append] at h
    omega
  refine ⟨outlineFrom limit (depthAfter '{' '}' (depthAfter '{' '}' 0 front) piece) back, ?_⟩
  rw [outlineFrom_append, outlineFrom_append, hkept]

/-- The character of the outline with the given index is the one at that place of the text. -/
structure ComesFrom (limit : Nat) (text : List Char) (index place : Nat) : Prop where
  place_lt : place < text.length
  before : (outlineFrom limit 0 (text.take place)).length = index
  kept : (outlineFrom limit 0 (text.take (place + 1))).length = index + 1

/-- Every character of the outline comes from somewhere. -/
theorem exists_comesFrom {limit index : Nat} {text : List Char}
    (h : index < (outlineFrom limit 0 text).length) :
    ∃ place, ComesFrom limit text index place := by
  induction text using List.reverseRecOn with
  | nil => cases h
  | append_singleton front c ih =>
    by_cases hfront : index < (outlineFrom limit 0 front).length
    · obtain ⟨place, hlt, hbefore, hkept⟩ := ih hfront
      refine ⟨place, ?_, ?_, ?_⟩
      · rw [List.length_append]
        omega
      · rwa [List.take_append_of_le_length (by omega)]
      · rwa [List.take_append_of_le_length hlt]
    · have hlast : (outlineFrom limit (depthAfter '{' '}' 0 front) [c]).length ≤ 1 :=
        (outlineFrom_sublist _ _ _).length_le
      rw [outlineFrom_append, List.length_append] at h
      have htake : (front ++ [c]).take (front.length + 1) = front ++ [c] :=
        List.take_of_length_le (by simp)
      refine ⟨front.length, by simp, ?_, ?_⟩
      · rw [List.take_left]
        omega
      · rw [htake, outlineFrom_append, List.length_append]
        omega

namespace ComesFrom

variable {limit start stop place last : Nat} {text : List Char}

/-- A character that is kept stands within the limit. -/
theorem depth_le (h : ComesFrom limit text start place) :
    depthAfter '{' '}' 0 (text.take place) ≤ limit := by
  by_contra hdeep
  have hkept := h.kept
  rw [List.take_succ_eq_append_getElem h.place_lt, outlineFrom_append, List.length_append, h.before,
    outlineFrom_cons, if_neg fun hwithin => hdeep hwithin.1] at hkept
  simp [outlineFrom] at hkept

/-- What stands apart in the outline stands at least as far apart in the text. -/
theorem le_sub (hfirst : ComesFrom limit text start place) (hlast : ComesFrom limit text stop last)
    (hle : start ≤ stop) : place ≤ last ∧ stop - start ≤ last - place := by
  have hbefore := hfirst.before
  have hbefore' := hlast.before
  have hkept' := hlast.kept
  have hplace : place ≤ last := by
    by_contra hlt
    have hmono := length_outlineFrom_take_le limit text (show last + 1 ≤ place by omega)
    omega
  have hmono := length_outlineFrom_take_le limit text hplace
  omega

/-- If two characters are as far apart in the outline as in the text, the text from one to the other
is a piece of the outline. -/
theorem exists_piece {length : Nat} (hpos : 0 < length) (hfirst : ComesFrom limit text start place)
    (hlast : ComesFrom limit text (start + length - 1) (place + length - 1)) :
    ∃ piece later, piece.length = length ∧ text.drop place = piece ++ text.drop (place + length) ∧
      outlineFrom limit 0 text = outlineFrom limit 0 (text.take place) ++ (piece ++ later) := by
  have hbound := hlast.place_lt
  obtain ⟨piece, hpiece⟩ : ∃ piece, piece = (text.drop place).take length := ⟨_, rfl⟩
  have hlength : piece.length = length := by
    rw [hpiece, List.length_take, List.length_drop]
    omega
  have hdrop : text.drop place = piece ++ text.drop (place + length) := by
    rw [hpiece, ← List.drop_drop, List.take_append_drop]
  have hkept : (outlineFrom limit 0 (text.take place ++ piece)).length =
      (outlineFrom limit 0 (text.take place)).length + piece.length := by
    have htotal := hlast.kept
    have hend : place + length - 1 + 1 = place + length := by omega
    rw [hend, List.take_add, ← hpiece] at htotal
    rw [htotal, hfirst.before, hlength]
    omega
  obtain ⟨later, houtline⟩ := outlineFrom_append_piece hkept (text.drop (place + length))
  rw [← hdrop, List.take_append_drop] at houtline
  exact ⟨piece, later, hlength, hdrop, houtline⟩

end ComesFrom

/-- A word that starts in the outline starts in the text as well: what is dropped before it ends
with a brace. -/
theorem atWordStart_of_outlineFrom {limit : Nat} {front : List Char}
    (hdepth : depthAfter '{' '}' 0 front ≤ limit)
    (h : atWordStart (outlineFrom limit 0 front).reverse = true) :
    atWordStart front.reverse = true := by
  rcases front.eq_nil_or_concat' with rfl | ⟨front, c, rfl⟩
  · rfl
  · have hnext : nextDepth '{' '}' (depthAfter '{' '}' 0 front) c ≤ limit := by
      simpa [depthAfter, List.foldl_append] using hdepth
    rw [outlineFrom_append, outlineFrom_cons] at h
    by_cases hwithin : depthAfter '{' '}' 0 front ≤ limit
    · rw [if_pos ⟨hwithin, hnext⟩] at h
      simpa [outlineFrom, atWordStart] using h
    · have hbrace : c = '}' := by
        by_contra hne
        unfold nextDepth at hnext
        split_ifs at hnext <;> omega
      subst hbrace
      simp [atWordStart, isWordChar]

/-! ## Masked parameters -/

/-- Masking keeps every character in its place. -/
theorem length_maskParametersFrom (depth : Nat) (text : List Char) :
    (maskParametersFrom depth text).length = text.length := by
  induction text generalizing depth with
  | nil => rfl
  | cons c text ih =>
    rw [maskParametersFrom]
    split_ifs <;> simp [ih]

/-- The mask leaves the parentheses. -/
theorem mem_maskParametersFrom_of_mem {depth : Nat} {text : List Char} {c : Char}
    (hc : c = '(' ∨ c = ')') (h : c ∈ text) : c ∈ maskParametersFrom depth text := by
  induction text generalizing depth with
  | nil => cases h
  | cons d text ih =>
    rw [maskParametersFrom]
    rcases List.mem_cons.mp h with rfl | hmem
    · rcases hc with rfl | rfl <;> simp
    · split_ifs <;> exact List.mem_cons_of_mem _ (ih hmem)

/-- Without parentheses all is masked or nothing. -/
theorem maskParametersFrom_of_not_mem {depth : Nat} {text : List Char} (hopen : '(' ∉ text)
    (hclose : ')' ∉ text) :
    maskParametersFrom depth text = if 0 < depth then text.map fun _ => ' ' else text := by
  induction text with
  | nil => simp [maskParametersFrom]
  | cons c text ih =>
    obtain ⟨hc, hopen⟩ := List.ne_and_not_mem_of_not_mem_cons hopen
    obtain ⟨hd, hclose⟩ := List.ne_and_not_mem_of_not_mem_cons hclose
    rw [maskParametersFrom, if_neg (Ne.symm hc), if_neg (Ne.symm hd), ih hopen hclose]
    split <;> rfl

/-- What is masked to a text without parentheses that starts with no space stands outside of all
parentheses. -/
theorem eq_of_maskParametersFrom {depth : Nat} {piece text : List Char}
    (h : maskParametersFrom depth piece = text) (hopen : '(' ∉ text) (hclose : ')' ∉ text)
    (hhead : ∃ c ∈ text.head?, c ≠ ' ') : depth = 0 ∧ piece = text := by
  have hopen' : '(' ∉ piece := fun hmem => hopen (h ▸ mem_maskParametersFrom_of_mem (.inl rfl) hmem)
  have hclose' : ')' ∉ piece :=
    fun hmem => hclose (h ▸ mem_maskParametersFrom_of_mem (.inr rfl) hmem)
  rw [maskParametersFrom_of_not_mem hopen' hclose'] at h
  obtain ⟨c, hc, hne⟩ := hhead
  split_ifs at h with hdepth
  · subst h
    cases piece with
    | nil => cases hc
    | cons d piece => exact absurd (Option.some.inj hc).symm hne
  · exact ⟨by omega, h⟩

/-- Outside of all parentheses a word starts in the masked text where it starts in the text. -/
theorem atWordStart_maskParametersFrom {text : List Char} (h : depthAfter '(' ')' 0 text = 0) :
    atWordStart (maskParametersFrom 0 text).reverse = atWordStart text.reverse := by
  rcases text.eq_nil_or_concat' with rfl | ⟨front, c, rfl⟩
  · rfl
  · have hnext : nextDepth '(' ')' (depthAfter '(' ')' 0 front) c = 0 := by
      simpa [depthAfter, List.foldl_append] using h
    have hlast : maskParametersFrom (depthAfter '(' ')' 0 front) [c] = [c] := by
      rw [maskParametersFrom]
      unfold nextDepth at hnext
      split_ifs at hnext ⊢
      · rfl
      · omega
      · rfl
    rw [maskParametersFrom_append, hlast, List.reverse_append, List.reverse_append]
    rfl

/-! ## Fields -/

/-- A modifier is followed by blanks. -/
theorem exists_gap_of_modifier? {text word rest : List Char}
    (h : modifier? text = some (word, rest)) :
    ∃ gap, gap ≠ [] ∧ IsGap gap ∧ text = word ++ (gap ++ rest) := by
  obtain ⟨other, -, hread⟩ := List.exists_of_findSome?_eq_some h
  obtain ⟨found, hfound, heq⟩ := Option.map_eq_some_iff.mp hread
  obtain ⟨rfl, rfl⟩ := Prod.mk.inj heq
  obtain ⟨after, hword, hblanks⟩ := Option.bind_eq_some_iff.mp hfound
  obtain ⟨gap, hne, hgap, rfl, -⟩ := afterBlankRun?_eq_some_iff.mp hblanks
  exact ⟨gap, hne, hgap, (List.isPrefixOf?_eq_some_iff_append_eq.mp hword).symm⟩

/-- After blanks a word may start. -/
theorem atWordStart_gap {gap : List Char} (hne : gap ≠ []) (hgap : IsGap gap) (before : List Char) :
    atWordStart (gap.reverse ++ before) = true := by
  rcases gap.eq_nil_or_concat' with rfl | ⟨front, c, rfl⟩
  · exact absurd rfl hne
  · have hword : isWordChar c = false := not_isWordChar_of_isBlank (hgap c (by simp))
    simp [atWordStart, hword]

/-- After the modifiers a word starts. -/
theorem exists_of_leadingModifiers (count : Nat) (text : List Char) {before : List Char}
    (hbefore : atWordStart before = true) :
    ∃ passed, text = passed ++ (leadingModifiers count text).2 ∧
      atWordStart (passed.reverse ++ before) = true := by
  induction count generalizing text before with
  | zero => exact ⟨[], rfl, hbefore⟩
  | succ count ih =>
    cases hread : modifier? text with
    | none =>
      rw [leadingModifiers_of_none hread]
      exact ⟨[], rfl, hbefore⟩
    | some result =>
      obtain ⟨word, rest⟩ := result
      obtain ⟨gap, hne, hgap, rfl⟩ := exists_gap_of_modifier? hread
      have hstart : atWordStart ((word ++ gap).reverse ++ before) = true := by
        rw [List.reverse_append, List.append_assoc]
        exact atWordStart_gap hne hgap _
      obtain ⟨passed, hsplit, hword⟩ := ih rest hstart
      have hafter : (leadingModifiers (count + 1) (word ++ (gap ++ rest))).2 =
          (leadingModifiers count rest).2 := by
        rw [leadingModifiers, hread]
      refine ⟨word ++ gap ++ passed, ?_, ?_⟩
      · rw [hafter, List.append_assoc, List.append_assoc, ← hsplit]
      · rwa [List.reverse_append, List.append_assoc]

/-- The declaration of a field is a typed name after modifiers. -/
theorem exists_of_fieldDeclaration {before text after : List Char} {field : Field}
    (h : fieldDeclaration before text = some (field, after)) :
    ∃ passed rest, text = passed ++ rest ∧
      typedName isNameStart fieldMarks (passed.reverse ++ before) rest =
        some (field.type, after) := by
  unfold fieldDeclaration at h
  split at h
  · rename_i hbefore
    have hmodifiers := modifiers_eq (le_refl text.length)
    obtain ⟨passed, hsplit, hword⟩ := exists_of_leadingModifiers text.length text hbefore
    rw [← hmodifiers] at hsplit
    refine ⟨passed, (modifiers text).2, hsplit, ?_⟩
    rw [typedName, typeMention, if_pos hword]
    simp only at h
    cases htype : typeName? (modifiers text).2 with
    | none =>
      rw [htype] at h
      cases h
    | some result =>
      obtain ⟨type, rest⟩ := result
      rw [htype] at h
      obtain ⟨found, hfound, heq⟩ := Option.map_eq_some_iff.mp h
      obtain ⟨rfl, rfl⟩ := Prod.mk.inj heq
      simp only [hfound, Option.map_some]
  · cases h

/-- A field declaration takes up at least its mark. -/
theorem advances_fieldDeclaration : fieldDeclaration.Advances := by
  intro before text field after h
  obtain ⟨passed, rest, rfl, htyped⟩ := exists_of_fieldDeclaration h
  obtain ⟨piece, hne, rfl⟩ := advances_typedName isNameStart fieldMarks _ _ _ _ htyped
  exact ⟨passed ++ piece, by simp [hne], by simp⟩

/-- A field that is found declares a typed name. -/
theorem exists_typedName_of_mem {members : List Char} {field : Field}
    (h : field ∈ occurrences fieldDeclaration members) :
    ∃ start stop, (typedName isNameStart fieldMarks).OccursAt members start stop field.type := by
  obtain ⟨start, stop, hoccurs, -⟩ := advances_fieldDeclaration.mem_occurrences_iff.mp h
  obtain ⟨passed, rest, hsplit, htyped⟩ := exists_of_fieldDeclaration hoccurs.reads
  have htake : members.take (start + passed.length) = members.take start ++ passed := by
    rw [List.take_add, hsplit, List.take_left]
  rw [← drop_add_length hsplit, ← List.reverse_append, ← htake] at htyped
  obtain ⟨stop', htyped, -⟩ := (advances_typedName isNameStart fieldMarks).exists_occursAt htyped
  exact ⟨start + passed.length, stop', htyped⟩

/-! ## Typed names in the outline and in the text -/

/-- Type arguments hold no mark that ends a declaration. -/
theorem not_endsTypeText_of_afterClosing? {opened : Nat} {text : List Char}
    (h : afterClosing? opened text = some []) :
    ∀ c ∈ text, endsTypeText c = false := by
  induction text generalizing opened with
  | nil => cases h
  | cons c text ih =>
    rw [afterClosing?] at h
    split_ifs at h with hopen hdeep hclose hlast hends
    · exact List.forall_mem_cons.mpr ⟨by rw [hopen]; decide, ih h⟩
    · obtain rfl := Option.some.inj h
      exact List.forall_mem_cons.mpr
        ⟨by rw [hclose]; decide, fun d hd => absurd hd List.not_mem_nil⟩
    · exact List.forall_mem_cons.mpr ⟨by rw [hclose]; decide, ih h⟩
    · exact List.forall_mem_cons.mpr ⟨Bool.eq_false_iff.mpr hends, ih h⟩

section TypedNames

variable {start : Char → Bool} {marks : List Char}

/-- A declaration holds no other mark than its last character. -/
theorem Spelling.not_mem_text (spelling : Spelling start marks)
    (hstart : ∀ c, start c = true → isNameStart c = true) {mark : Char}
    (hends : endsTypeText mark = true) (hmark : mark ∉ marks) : mark ∉ spelling.text := by
  have hblank := not_isBlank_of_endsTypeText hends
  have hname := not_isNameChar_of_endsTypeText hends
  have hgap {gap : List Char} (h : IsGap gap) : mark ∉ gap := fun hmem => by
    rw [h mark hmem] at hblank
    cases hblank
  have hword {name : List Char} (h : ∀ c ∈ name, isNameChar c = true) : mark ∉ name :=
    fun hmem => by
    rw [h mark hmem] at hname
    cases hname
  have harguments : mark ∉ spelling.arguments := by
    rcases spelling.arguments_listed with hnone | ⟨blanks, list, hblanks, hlist, heq⟩
    · rw [hnone]
      exact List.not_mem_nil
    · obtain ⟨inside, rfl, hinside⟩ := hlist.exists_eq
      rw [heq, List.mem_append, List.mem_cons, not_or, not_or]
      refine ⟨hgap hblanks, (not_angle_of_endsTypeText hends).1, fun hmem => ?_⟩
      rw [not_endsTypeText_of_afterClosing? hinside mark hmem] at hends
      cases hends
  simp only [Spelling.text, List.mem_append, List.mem_singleton, not_or]
  exact ⟨hword spelling.type_isName.nameChars_of_type, harguments,
    hgap spelling.gap_isGap, hword (spelling.name_isName.nameChars hstart),
    hgap spelling.space_isGap,
    fun heq => hmark (heq ▸ spelling.mark_mem)⟩

/-- A spelling does not start with a space. -/
theorem Spelling.exists_head (spelling : Spelling start marks) :
    ∃ c ∈ spelling.text.head?, c ≠ ' ' := by
  obtain ⟨first, more, htype, hfirst, -⟩ := spelling.type_isName
  refine ⟨first, by rw [Spelling.text, htype]; rfl, ?_⟩
  rintro rfl
  exact absurd hfirst (by decide)

/-- Where a typed name occurs, a spelling of its type stands at the start of a word. -/
theorem exists_spelling_of_occursAt {text type : List Char} {place stop : Nat}
    (h : (typedName start marks).OccursAt text place stop type) :
    ∃ spelling : Spelling start marks, spelling.type = type ∧
      atWordStart (text.take place).reverse = true ∧
      text.drop place = spelling.text ++ text.drop stop ∧ stop = place + spelling.text.length := by
  obtain ⟨hword, spelling, htype, hsplit⟩ := exists_spelling_of_typedName h.reads
  exact ⟨spelling, htype, hword, hsplit, h.stop_eq hsplit⟩

/-- What is spelled like a typed name at the start of a word is an occurrence. -/
theorem Spelling.occursAt (spelling : Spelling start marks)
    (hstart : ∀ c, start c = true → isNameStart c = true)
    (hmarks : ∀ mark ∈ marks, isBlank mark = false ∧ isNameChar mark = false) {text : List Char}
    {place : Nat}
    (hword : atWordStart (text.take place).reverse = true)
    (hsplit : text.drop place = spelling.text ++ text.drop (place + spelling.text.length)) :
    (typedName start marks).OccursAt text place (place + spelling.text.length) spelling.type := by
  have hread :=
    spelling.typedName_text hstart hmarks hword (text.drop (place + spelling.text.length))
  rw [← hsplit] at hread
  have hpos : 0 < spelling.text.length := List.length_pos_iff.mpr spelling.text_ne_nil
  have hlength : text.length - place =
      spelling.text.length + (text.length - (place + spelling.text.length)) := by
    rw [← List.length_drop, hsplit, List.length_append, List.length_drop]
  exact ⟨by omega, by omega, hread⟩

end TypedNames

/-- Whatever ends a field ends a statement. -/
theorem fieldMarks_subset : fieldMarks ⊆ statementMarks := by
  decide

/-- The marks of fields are neither blank nor part of a name. -/
theorem fieldMarks_spec : ∀ mark ∈ fieldMarks, isBlank mark = false ∧ isNameChar mark = false :=
  fun mark hmark => statementMarks_spec mark (fieldMarks_subset hmark)

/-- Declarations that end like a statement count as references. -/
theorem declarationBefore_statementMarks_mem :
    declarationBefore statementMarks ∈ referencePatterns :=
  List.mem_cons_of_mem _ (List.mem_cons_of_mem _ List.mem_cons_self)

/-- A name starts with a lower-case character or like a type name. -/
theorem IsName.lower_or_type {name : List Char} (h : IsName isNameStart name) :
    IsName isLowerStart name ∨ IsName isTypeStart name := by
  obtain ⟨first, more, heq, hfirst, hmore⟩ := h
  rcases isNameStart_iff.mp hfirst with hupper | hlower
  · exact .inr ⟨first, more, heq, hupper, hmore⟩
  · exact .inl ⟨first, more, heq, hlower, hmore⟩

/-- **A field stands in the text as in the outline** if nothing is dropped between its first and its
last character. -/
theorem Spelling.split_text {start : Char → Bool} {marks : List Char}
    (spelling : Spelling start marks) (hstart : ∀ c, start c = true → isNameStart c = true)
    (hopen : '(' ∉ marks) (hclose : ')' ∉ marks)
    {limit index place : Nat} {text rest : List Char}
    (hword : atWordStart ((maskParameters (outlineFrom limit 0 text)).take index).reverse = true)
    (hsplit : (maskParameters (outlineFrom limit 0 text)).drop index = spelling.text ++ rest)
    (hfirst : ComesFrom limit text index place)
    (hlast :
      ComesFrom limit text (index + spelling.text.length - 1) (place + spelling.text.length - 1)) :
    atWordStart (text.take place).reverse = true ∧
      text.drop place = spelling.text ++ text.drop (place + spelling.text.length) := by
  have hpos : 0 < spelling.text.length := List.length_pos_iff.mpr spelling.text_ne_nil
  obtain ⟨piece, later, hlength, hdrop, houtline⟩ := hfirst.exists_piece hpos hlast
  -- the mask of the part before the field ends where the field starts
  have hbefore : (maskParametersFrom 0 (outlineFrom limit 0 (text.take place))).length = index := by
    rw [length_maskParametersFrom, hfirst.before]
  rw [maskParameters, houtline, maskParametersFrom_append, ← hbefore, List.drop_left,
    maskParametersFrom_append] at hsplit
  rw [maskParameters, houtline, maskParametersFrom_append, ← hbefore, List.take_left] at hword
  have hmasked := (List.append_inj hsplit (by rw [length_maskParametersFrom, hlength])).1
  obtain ⟨hdepth, hsame⟩ :=
    eq_of_maskParametersFrom hmasked (spelling.not_mem_text hstart (by decide) hopen)
    (spelling.not_mem_text hstart (by decide) hclose) spelling.exists_head
  rw [atWordStart_maskParametersFrom hdepth] at hword
  refine ⟨atWordStart_of_outlineFrom hfirst.depth_le hword, ?_⟩
  rwa [hsame] at hdrop

/-! ## Fields among the references -/

/-- A field of the given type is declared in the outline. -/
def FieldAt (limit : Nat) (text : List Char) (start stop : Nat) (type : List Char) : Prop :=
  (typedName isNameStart fieldMarks).OccursAt (maskParameters (outline limit text)) start stop type

/-- Why a field may be missing among the references: its name starts like that of a type, the
outline drops something between its first and its last character, or it starts inside an earlier
declaration. -/
inductive Unreferenced (limit : Nat) (text : List Char) (start stop : Nat) (type : List Char) : Prop
  | capitalised
    (h : (typedName isTypeStart fieldMarks).OccursAt
      (maskParameters (outline limit text)) start stop type)
  | interrupted {place last : Nat} (hfirst : ComesFrom limit text start place)
      (hlast : ComesFrom limit text (stop - 1) last) (h : stop - 1 - start < last - place)
  | overtaken {place : Nat} (hfirst : ComesFrom limit text start place)
      (h : (declarationBefore statementMarks).Overtaken text place)

/-- An outline with a field is that of a text with a brace. -/
theorem FieldAt.outline_eq {limit start stop : Nat} {text type : List Char}
    (h : FieldAt limit text start stop type) :
    outline limit text = outlineFrom limit 0 text := by
  by_contra hne
  have hbrace : '{' ∉ text := fun hmem => hne (outline_of_mem hmem limit)
  have hlt := h.start_lt_length
  rw [outline_of_not_mem hbrace] at hlt
  exact absurd hlt (Nat.not_lt_zero start)

/-- A field whose name starts like that of a variable is a declaration in the text, if nothing is
dropped in it. -/
theorem FieldAt.unreferenced_or_occursAt {limit start stop : Nat} {text type : List Char}
    (h : FieldAt limit text start stop type) :
    Unreferenced limit text start stop type ∨
      ∃ place upto, ComesFrom limit text start place ∧
        (declarationBefore statementMarks).OccursAt text place upto type := by
  have houtline := h.outline_eq
  have hlt := h.start_lt
  have hle := h.stop_le
  obtain ⟨spelling, rfl, hword, hsplit, rfl⟩ := exists_spelling_of_occursAt h
  rw [maskParameters, length_maskParametersFrom, houtline] at hle
  obtain ⟨place, hfirst⟩ :=
    exists_comesFrom (show start < (outlineFrom limit 0 text).length by omega)
  obtain ⟨last, hlast⟩ :=
    exists_comesFrom
      (show start + spelling.text.length - 1 < (outlineFrom limit 0 text).length by omega)
  obtain ⟨hplace, hapart⟩ := hfirst.le_sub hlast (by omega)
  by_cases hdropped : start + spelling.text.length - 1 - start < last - place
  · exact .inl (.interrupted hfirst hlast hdropped)
  · rcases spelling.name_isName.lower_or_type with hlower | hupper
    · obtain rfl : last = place + spelling.text.length - 1 := by omega
      rw [houtline] at hword hsplit
      obtain ⟨hword, hsplit⟩ :=
        spelling.split_text (fun _ hc => hc) (by decide) (by decide) hword hsplit hfirst hlast
      let wider : Spelling isLowerStart statementMarks :=
        spelling.widen hlower (fieldMarks_subset spelling.mark_mem)
      rw [declarationBefore_eq]
      exact .inr ⟨place, _, hfirst,
        wider.occursAt (fun _ => isNameStart_of_isLowerStart) statementMarks_spec hword hsplit⟩
    · let narrower : Spelling isTypeStart fieldMarks := spelling.widen hupper spelling.mark_mem
      exact .inl (.capitalised
        (narrower.occursAt (fun _ => isNameStart_of_isTypeStart) fieldMarks_spec hword hsplit))

/-- A field that is missing among the references is an exception. -/
theorem FieldAt.unreferenced {limit start stop : Nat} {text : List Char} {own name : String}
    {known : NameSet} (h : FieldAt limit text start stop name.toList) (hown : name ≠ own)
    (hknown : name ∈ known)
    (hmissing : name ∉ references own known text) :
    Unreferenced limit text start stop name.toList := by
  rcases h.unreferenced_or_occursAt with hexception | ⟨place, upto, hfirst, hoccurs⟩
  · exact hexception
  · refine .overtaken hfirst (by_contra fun hfree => hmissing (mem_references_iff.mpr ?_))
    exact ⟨hown, hknown, _, declarationBefore_statementMarks_mem, place, upto, hoccurs, hfree⟩

end ClassAtlas.Source

namespace ClassAtlas.Entity

open ClassAtlas.Source

/-- **Types of fields are among the references, with three exceptions.** What a type is composed of
is declared as a field in its outline. It is also among the types that the text refers to, unless
every field of that type is one of the exceptions. -/
theorem composition_efferent_or_unreferenced (settings : Settings) (known : NameSet)
    (path source name : String)
    (hcomposed : name ∈ (ofSource settings known path source).composition) :
    (∃ start stop,
      FieldAt settings.outlineDepth (withoutNoise source.toList) start stop name.toList) ∧
      (name ∈ (ofSource settings known path source).efferent ∨
        ∀ start stop,
          FieldAt settings.outlineDepth (withoutNoise source.toList) start stop name.toList →
          Unreferenced settings.outlineDepth
            (withoutNoise source.toList) start stop name.toList) := by
  obtain ⟨⟨field, hfield, htype⟩, hown, -, hknown, -⟩ := mem_composition_fieldTargets.mp hcomposed
  constructor
  · obtain ⟨start, stop, htyped⟩ := exists_typedName_of_mem hfield
    rw [← htype, String.toList_ofList]
    exact ⟨start, stop, htyped⟩
  · by_cases hmem : name ∈ (ofSource settings known path source).efferent
    · exact .inl hmem
    · exact .inr fun start stop hat => hat.unreferenced hown hknown hmem

/-- A constant is a field of its type and no reference to it. -/
theorem composition_efferent_or_unreferenced_constant :
    "B" ∈ (ofSource .standard (.ofList ["A", "B"]) "A.java"
        "class A \x7b B CONST; \x7d").composition ∧
      ∃ start stop,
        FieldAt 1 (withoutNoise "class A \x7b B CONST; \x7d".toList) start stop "B".toList ∧
          Unreferenced 1
            (withoutNoise "class A \x7b B CONST; \x7d".toList) start stop "B".toList := by
  have hcomposed : "B" ∈ (ofSource .standard (.ofList ["A", "B"]) "A.java"
      "class A \x7b B CONST; \x7d").composition := by
    decide +kernel
  have hmissing : "B" ∉ (ofSource .standard (.ofList ["A", "B"]) "A.java"
      "class A \x7b B CONST; \x7d").efferent := by
    decide +kernel
  obtain ⟨⟨start, stop, hfield⟩, hcounted⟩ :=
    composition_efferent_or_unreferenced _ _ _ _ _ hcomposed
  exact ⟨hcomposed, start, stop, hfield, hcounted.resolve_left hmissing start stop hfield⟩

/-- Each exception occurs: a capitalised name, a block inside a field, and a field inside the type
arguments of what is no field itself. In all three the field is counted and the reference is not. -/
theorem composition_without_reference :
    ("B" ∈ (ofSource .standard (.ofList ["A", "B"]) "A.java"
        "class A \x7b B CONST; \x7d").composition ∧
      "B" ∉ (ofSource .standard (.ofList ["A", "B"]) "A.java"
          "class A \x7b B CONST; \x7d").efferent) ∧
    ("B" ∈ (ofSource .standard (.ofList ["A", "B"]) "A.java"
        "class A \x7b B \x7b \x7d c; \x7d").composition ∧
      "B" ∉ (ofSource .standard (.ofList ["A", "B"]) "A.java"
          "class A \x7b B \x7b \x7d c; \x7d").efferent) ∧
    ("B" ∈ (ofSource .standard (.ofList ["A", "B"]) "A.java"
        "class A \x7b C<B b, D> e: \x7d").composition ∧
      "B" ∉ (ofSource .standard (.ofList ["A", "B"]) "A.java"
          "class A \x7b C<B b, D> e: \x7d").efferent) := by
  decide +kernel

end ClassAtlas.Entity
