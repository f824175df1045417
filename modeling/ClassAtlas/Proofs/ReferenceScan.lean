import ClassAtlas.Proofs.RelationTargets
import ClassAtlas.Proofs.Spellings

/-!
# What the search for references finds

A reference is found unless an earlier one of the same pattern reaches into it. A pattern takes up
more than the name of the type: a creation its keyword, a member access the first letter of the
member, a declaration the type arguments, the declared name and the mark after it. This file says
where in these another reference can start. So what is missed are types that are themselves selected
as members, types in the type arguments of a declaration, and the part of a name after a dollar
sign.
-/

namespace ClassAtlas.Source

open ClassAtlas.Text

/-! ## The patterns -/

/-- A creation takes up at least its keyword. -/
theorem advances_creation : creation.Advances := by
  intro before text type rest h
  obtain ⟨-, gap, -, -, -, rfl⟩ := exists_of_creation h
  exact ⟨['n', 'e', 'w'] ++ (gap ++ type), by simp, by simp⟩

/-- A member access takes up at least its type. -/
theorem advances_memberAccess : memberAccess.Advances := by
  intro before text type rest h
  obtain ⟨-, space, gap, c, -, -, -, -, rfl⟩ := exists_of_memberAccess h
  exact ⟨type ++ (space ++ ('.' :: (gap ++ [c]))), by simp, by simp⟩

/-- A typed name takes up at least its mark. -/
theorem advances_typedName (start : Char → Bool) (marks : List Char) :
    (typedName start marks).Advances := by
  intro before text type rest h
  obtain ⟨-, spelling, -, rfl⟩ := exists_spelling_of_typedName h
  exact ⟨spelling.text, spelling.text_ne_nil, rfl⟩

/-- The marks after a declaration that counts as a reference. -/
def statementMarks : List Char := [';', '=', ',', ')', ':']

/-- The marks that end a statement are neither blank nor part of a name. -/
theorem statementMarks_spec : ∀ mark ∈ statementMarks, isBlank mark = false ∧
    isNameChar mark = false := by
  intro mark hmark
  simp only [statementMarks, List.mem_cons, List.not_mem_nil, or_false] at hmark
  rcases hmark with rfl | rfl | rfl | rfl | rfl <;> decide

/-- The patterns of references are creations, member accesses and declarations. -/
theorem mem_referencePatterns {pattern : Recogniser (List Char)} (h : pattern ∈ referencePatterns) :
    pattern = creation ∨ pattern = memberAccess ∨
      ∃ marks, (∀ mark ∈ marks, isNameChar mark = false) ∧ pattern = declarationBefore marks := by
  simp only [referencePatterns, List.mem_cons, List.not_mem_nil, or_false] at h
  rcases h with rfl | rfl | rfl | rfl
  · exact .inl rfl
  · exact .inr (.inl rfl)
  · exact .inr (.inr ⟨statementMarks, fun mark hmark => (statementMarks_spec mark hmark).2, rfl⟩)
  · refine .inr (.inr ⟨_, fun mark hmark => ?_, rfl⟩)
    rw [List.mem_singleton.mp hmark]
    decide

/-- Every pattern of references takes up something. -/
theorem advances_of_mem_referencePatterns {pattern : Recogniser (List Char)}
    (h : pattern ∈ referencePatterns) :
    pattern.Advances := by
  rcases mem_referencePatterns h with rfl | rfl | ⟨marks, -, rfl⟩
  · exact advances_creation
  · exact advances_memberAccess
  · rw [declarationBefore_eq]
    exact advances_typedName isLowerStart marks

/-- A text refers to the known types other than the own one that a pattern reads where it is not
overtaken. -/
theorem mem_references_iff {own name : String} {known : NameSet} {text : List Char} :
    name ∈ references own known text ↔ name ≠ own ∧ name ∈ known ∧
      ∃ pattern ∈ referencePatterns, ∃ start stop,
        pattern.OccursAt text start stop name.toList ∧ ¬ pattern.Overtaken text start := by
  rw [mem_references]
  constructor
  · rintro ⟨⟨pattern, hpattern, found, hfound, rfl⟩, hown, hknown⟩
    obtain ⟨start, stop, hoccurs, hfree⟩ :=
      (advances_of_mem_referencePatterns hpattern).mem_occurrences_iff.mp hfound
    exact ⟨hown, hknown, pattern, hpattern, start, stop, by rwa [String.toList_ofList], hfree⟩
  · rintro ⟨hown, hknown, pattern, hpattern, start, stop, hoccurs, hfree⟩
    have hfound : name.toList ∈ occurrences pattern text :=
      (advances_of_mem_referencePatterns hpattern).mem_occurrences_iff.mpr
        ⟨start, stop, hoccurs, hfree⟩
    exact ⟨⟨pattern, hpattern, name.toList, hfound, String.ofList_toList⟩, hown, hknown⟩

/-! ## Words that start inside an occurrence -/

/-- The position comes right after a dollar sign. -/
def AfterDollar (text : List Char) (position : Nat) : Prop :=
  0 < position ∧ text[position - 1]? = some '$'

/-- The character at the position is the first one of a member that is accessed. -/
def SelectedAt (text : List Char) (position : Nat) : Prop :=
  ∃ start type, memberAccess.OccursAt text start (position + 1) type

/-- The position lies inside a list of type arguments. -/
def InsideArguments (text : List Char) (position : Nat) : Prop :=
  ∃ opening closing, opening < position ∧ position < closing ∧ closing ≤ text.length ∧
    afterTypeArguments? (text.drop opening) = some (text.drop closing)

/-- A name starts at the position with the given character, and not in the middle of a word. -/
structure WordStart (text : List Char) (position : Nat) (first : Char) : Prop where
  first_eq : text[position]? = some first
  first_name : isNameChar first = true
  starts : atWordStart (text.take position).reverse = true

namespace WordStart

variable {text : List Char} {position i : Nat} {first : Char}

/-- The character before the start of a word is no part of a word. -/
theorem not_isWordChar_before (h : WordStart text position first) {c : Char} (hpos : 0 < position)
    (hc : text[position - 1]? = some c) : isWordChar c = false := by
  obtain ⟨hlt, -⟩ := List.getElem?_eq_some_iff.mp h.first_eq
  exact (atWordStart_reverse_take_iff (Nat.le_of_lt hlt)).mp h.starts c hpos hc

/-- A word that starts at the start of a piece is in the class of its first character. -/
theorem first_eq_of_drop (h : WordStart text position first) {c : Char} {rest : List Char}
    (hsplit : text.drop position = c :: rest) : first = c := by
  have heq := h.first_eq
  rw [getElem?_of_drop_eq_cons hsplit] at heq
  exact (Option.some.inj heq).symm

/-- A word starts only behind characters that are part of no name. -/
theorem past (h : WordStart text position first) {piece rest : List Char}
    (hsplit : text.drop i = piece ++ rest) (hpiece : ∀ c ∈ piece, isNameChar c = false)
    (hle : i ≤ position) : i + piece.length ≤ position := by
  by_contra hlt
  have hmem : first ∈ piece := mem_of_drop_eq hsplit hle (by omega) h.first_eq
  have hname := h.first_name
  rw [hpiece first hmem] at hname
  cases hname

/-- A word starts after any character before it that may not stand in a name. -/
theorem past_char (h : WordStart text position first) {c : Char} {rest : List Char}
    (hsplit : text.drop i = c :: rest) (hc : isNameChar c = false) (hle : i ≤ position) :
    i + 1 ≤ position := by
  have hpiece : ∀ d ∈ [c], isNameChar d = false := by
    intro d hd
    rw [List.mem_singleton.mp hd]
    exact hc
  have hsplit' : text.drop i = [c] ++ rest := hsplit
  exact h.past hsplit' hpiece hle

/-- A word that starts after the start of a name starts behind it, or after a dollar sign in it. -/
theorem dollar_or_past (h : WordStart text position first) {name rest : List Char}
    (hsplit : text.drop i = name ++ rest) (hname : ∀ c ∈ name, isNameChar c = true)
    (hlt : i < position) :
    AfterDollar text position ∨ i + name.length < position := by
  by_cases hpast : i + name.length < position
  · exact .inr hpast
  · obtain ⟨c, hmem, hc⟩ : ∃ c ∈ name, text[position - 1]? = some c :=
      exists_mem_of_drop_eq hsplit (by omega) (by omega)
    have hdollar : c = '$' :=
      eq_dollar_of_isNameChar (hname c hmem) (h.not_isWordChar_before (by omega) hc)
    exact .inl ⟨by omega, by rw [hc, hdollar]⟩

/-- A word that starts after the start of another one starts behind it, and not right behind it. -/
theorem past_word (h : WordStart text position first) {word rest : List Char}
    (hsplit : text.drop i = word ++ rest) (hword : ∀ c ∈ word, isWordChar c = true)
    (hlt : i < position) : i + word.length < position := by
  by_contra hinside
  obtain ⟨c, hmem, hc⟩ : ∃ c ∈ word, text[position - 1]? = some c :=
    exists_mem_of_drop_eq hsplit (by omega) (by omega)
  have hnot := h.not_isWordChar_before (by omega) hc
  rw [hword c hmem] at hnot
  cases hnot

/-- A word that starts after a type starts behind its arguments, or inside them. -/
theorem inside_or_past (h : WordStart text position first) {start : Char → Bool}
    {marks rest : List Char} (spelling : Spelling start marks)
    (hsplit : text.drop i = spelling.arguments ++ rest) (hle : i ≤ position) :
    InsideArguments text position ∨ i + spelling.arguments.length ≤ position := by
  rcases spelling.arguments_listed with hnone | ⟨blanks, list, hblanks, hlist, harguments⟩
  · rw [hnone, List.length_nil]
    exact .inr hle
  · rw [harguments, List.append_assoc] at hsplit
    obtain ⟨inside, hopen, -⟩ := hlist.exists_eq
    have hopening : i + blanks.length ≤ position :=
      h.past hsplit (fun c hc => not_isNameChar_of_isBlank (hblanks c hc)) hle
    have hlistAt : text.drop (i + blanks.length) = list ++ rest := drop_add_length hsplit
    have hone : i + blanks.length + 1 ≤ position := by
      rw [hopen] at hlistAt
      exact h.past_char hlistAt (by decide) hopening
    rw [harguments, List.length_append]
    by_cases hclosing : position < i + blanks.length + list.length
    · have hlength : text.length - (i + blanks.length) = list.length + rest.length := by
        rw [← List.length_drop, hlistAt, List.length_append]
      refine .inl
        ⟨i + blanks.length, i + blanks.length + list.length, by omega, hclosing, by omega, ?_⟩
      rw [hlistAt, drop_add_length hlistAt]
      exact hlist.afterTypeArguments? rest
    · exact .inr (by omega)

end WordStart

/-- No blank may stand in a name. -/
theorem IsGap.not_isNameChar {gap : List Char} (h : IsGap gap) : ∀ c ∈ gap, isNameChar c = false :=
  fun c hc => not_isNameChar_of_isBlank (h c hc)

/-- Where a type is mentioned a word starts, with a capital letter. -/
theorem IsName.wordStart {text name rest : List Char} {position : Nat}
    (hname : IsName isTypeStart name) (hsplit : text.drop position = name ++ rest)
    (hword : atWordStart (text.take position).reverse = true) :
    ∃ first, isTypeStart first = true ∧ WordStart text position first := by
  obtain ⟨first, more, rfl, hfirst, -⟩ := hname
  exact ⟨first, hfirst, getElem?_of_drop_eq_cons hsplit,
    isNameChar_of_isNameStart (isNameStart_of_isTypeStart hfirst), hword⟩

/-! ## Where a reference can start inside another one -/

section Inside

variable {text found found' : List Char} {start stop position stop' : Nat}

/-- Inside a creation another one can start only in the name of the type. -/
theorem overlap_of_creation (h : creation.OccursAt text start stop found)
    (h' : creation.OccursAt text position stop' found') (hlt : start < position)
    (hgt : position < stop) :
    AfterDollar text position := by
  obtain ⟨-, gap, -, hgap, hname, hsplit⟩ := exists_of_creation h.reads
  obtain ⟨hword, _, -, -, -, hsplit'⟩ := exists_of_creation h'.reads
  have hfirst : WordStart text position 'n' := ⟨getElem?_of_drop_eq_cons hsplit', by decide, hword⟩
  have hstop : stop = start + (3 + (gap.length + found.length)) := by
    have hpiece : text.drop start = (['n', 'e', 'w'] ++ (gap ++ found)) ++ text.drop stop := by
      simpa using hsplit
    rw [h.stop_eq hpiece, List.length_append, List.length_append]
    rfl
  have hnew : ['n', 'e', 'w'].all isNameChar = true := by decide
  have hgapAt : text.drop (start + 3) = gap ++ (found ++ text.drop stop) := drop_add_length hsplit
  have htypeAt := drop_add_length hgapAt
  rcases hfirst.dollar_or_past hsplit (List.all_eq_true.mp hnew) hlt with hdollar | hpastNew
  · exact hdollar
  · have hpastGap : start + 3 + gap.length ≤ position :=
      hfirst.past hgapAt hgap.not_isNameChar (Nat.le_of_lt hpastNew)
    rcases Nat.eq_or_lt_of_le hpastGap with rfl | hinType
    · -- The name of a type starts with a capital letter, so it is not the keyword.
      obtain ⟨capital, more, rfl, hcapital, -⟩ := hname
      obtain rfl := hfirst.first_eq_of_drop htypeAt
      exact absurd hcapital (by decide)
    · rcases hfirst.dollar_or_past htypeAt hname.nameChars_of_type hinType with hdollar | hpastType
      · exact hdollar
      · omega

/-- Inside a member access another one can start in the name of the type or at the member. -/
theorem overlap_of_memberAccess (h : memberAccess.OccursAt text start stop found)
    (h' : memberAccess.OccursAt text position stop' found') (hlt : start < position)
    (hgt : position < stop) :
    AfterDollar text position ∨ SelectedAt text position := by
  obtain ⟨-, space, gap, c, hspace, hgap, -, hname, hsplit⟩ := exists_of_memberAccess h.reads
  obtain ⟨hword, _, _, _, -, -, -, hname', hsplit'⟩ := exists_of_memberAccess h'.reads
  obtain ⟨first, -, hfirst⟩ := hname'.wordStart hsplit' hword
  have hstop : stop = start + found.length + space.length + 1 + gap.length + 1 := by
    have hpiece :
        text.drop start = (found ++ (space ++ ('.' :: (gap ++ [c])))) ++ text.drop stop := by
      simpa using hsplit
    rw [h.stop_eq hpiece]
    simp only [List.length_append, List.length_cons, List.length_nil]
    omega
  have hspaceAt := drop_add_length hsplit
  have hdotAt := drop_add_length hspaceAt
  have hgapAt :
      text.drop (start + found.length + space.length + 1) = gap ++ c :: text.drop stop := by
    rw [← List.drop_drop, hdotAt, List.drop_one, List.tail_cons]
  rcases hfirst.dollar_or_past hsplit hname.nameChars_of_type hlt with hdollar | hpastType
  · exact .inl hdollar
  · have hpastSpace := hfirst.past hspaceAt hspace.not_isNameChar (Nat.le_of_lt hpastType)
    have hpastDot := hfirst.past_char hdotAt (by decide) hpastSpace
    have hpastGap := hfirst.past hgapAt hgap.not_isNameChar hpastDot
    have hatMember : stop = position + 1 := by omega
    subst hatMember
    exact .inr ⟨start, found, h⟩

/-- Inside a declaration another one can start in the name of the type, in the type arguments or in
the declared name. -/
theorem overlap_of_declaration {marks : List Char}
    (hmarks : ∀ mark ∈ marks, isNameChar mark = false)
    (h : (declarationBefore marks).OccursAt text start stop found)
    (h' : (declarationBefore marks).OccursAt text position stop' found') (hlt : start < position)
    (hgt : position < stop) : AfterDollar text position ∨ InsideArguments text position := by
  obtain ⟨-, spelling, rfl, hsplit⟩ := exists_spelling_of_typedName h.reads
  obtain ⟨hword, other, rfl, hsplit'⟩ := exists_spelling_of_typedName h'.reads
  have hstop := h.stop_eq hsplit
  rw [spelling.text_append] at hsplit
  rw [other.text_append] at hsplit'
  obtain ⟨first, hcapital, hfirst⟩ := other.type_isName.wordStart hsplit' hword
  have hlength : spelling.text.length =
      spelling.type.length + spelling.arguments.length + spelling.gap.length +
      spelling.name.length + spelling.space.length + 1 := by
    simp only [Spelling.text, List.length_append, List.length_cons, List.length_nil]
    omega
  have hargumentsAt := drop_add_length hsplit
  have hgapAt := drop_add_length hargumentsAt
  have hnameAt := drop_add_length hgapAt
  have hspaceAt := drop_add_length hnameAt
  have hmarkAt := drop_add_length hspaceAt
  rcases hfirst.dollar_or_past hsplit spelling.type_isName.nameChars_of_type hlt
    with hdollar | hpastType
  · exact .inl hdollar
  · rcases hfirst.inside_or_past spelling hargumentsAt (Nat.le_of_lt hpastType) with hinside
      | hpastArguments
    · exact .inr hinside
    · have hpastGap := hfirst.past hgapAt spelling.gap_isGap.not_isNameChar hpastArguments
      rcases Nat.eq_or_lt_of_le hpastGap with hatName | hinName
      · -- A declared name starts with a small letter, so it is not a type.
        obtain ⟨small, more, hname, hsmall, -⟩ := spelling.name_isName
        rw [hatName, hname] at hnameAt
        obtain rfl := hfirst.first_eq_of_drop hnameAt
        rw [not_isTypeStart_of_isLowerStart hsmall] at hcapital
        cases hcapital
      · have hnameChars := spelling.name_isName.nameChars fun _ hc => isNameStart_of_isLowerStart hc
        rcases hfirst.dollar_or_past hnameAt hnameChars hinName with hdollar | hpastName
        · exact .inl hdollar
        · have hpastSpace :=
            hfirst.past hspaceAt spelling.space_isGap.not_isNameChar (Nat.le_of_lt hpastName)
          have hpastMark := hfirst.past_char hmarkAt (hmarks _ spelling.mark_mem) hpastSpace
          omega

end Inside

/-- **The search for references misses only what is overlapped.** It finds the known types other
than the own one that some pattern reads at a position which no earlier occurrence of the pattern
takes up. An occurrence of a reference that is taken up starts in the middle of a name, after a
dollar sign, or it is itself the member that is selected from another type, or it stands inside type
arguments. -/
theorem references_miss_only_overlapped (own : String) (known : NameSet) (text : List Char) :
    (∀ name, name ∈ references own known text ↔ name ≠ own ∧ name ∈ known ∧
      ∃ pattern ∈ referencePatterns, ∃ start stop,
        pattern.OccursAt text start stop name.toList ∧ ¬ pattern.Overtaken text start) ∧
      ∀ pattern ∈ referencePatterns, ∀ position stop found,
        pattern.OccursAt text position stop found →
        pattern.Overtaken text position →
          AfterDollar text position ∨ SelectedAt text position ∨ InsideArguments text position := by
  refine ⟨fun name => mem_references_iff, ?_⟩
  rintro pattern hpattern position stop' found' hoccurs ⟨start, stop, found, -, hearlier, hlt, hgt⟩
  rcases mem_referencePatterns hpattern with rfl | rfl | ⟨marks, hmarks, rfl⟩
  · exact .inl (overlap_of_creation hearlier hoccurs hlt hgt)
  · rcases overlap_of_memberAccess hearlier hoccurs hlt hgt with hdollar | hselected
    · exact .inl hdollar
    · exact .inr (.inl hselected)
  · rcases overlap_of_declaration hmarks hearlier hoccurs hlt hgt with hdollar | hinside
    · exact .inl hdollar
    · exact .inr (.inr hinside)

/-- A type that is selected from another one and has a member selected from it is an occurrence of a
reference that is not found. -/
theorem references_miss_selected_type :
    ¬ ∀ name, name ∈ references "Main" (NameSet.ofList ["Inner"]) "Outer.Inner.run();".toList ↔
      name ≠ "Main" ∧ name ∈ NameSet.ofList ["Inner"] ∧ ∃ pattern ∈ referencePatterns, ∃ start stop,
        pattern.OccursAt "Outer.Inner.run();".toList start stop name.toList := by
  intro hall
  have hoccurs : memberAccess.OccursAt "Outer.Inner.run();".toList 6 13 "Inner".toList :=
    ⟨by decide, by decide, by decide⟩
  have hpattern : memberAccess ∈ referencePatterns := by simp [referencePatterns]
  have hmissed :
      "Inner" ∉ references "Main" (NameSet.ofList ["Inner"]) "Outer.Inner.run();".toList := by
    decide +kernel
  exact hmissed ((hall "Inner").mpr ⟨by decide, by decide, memberAccess, hpattern, 6, 13, hoccurs⟩)

end ClassAtlas.Source
