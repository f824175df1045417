import ClassAtlas.Proofs.FieldMarks
import ClassAtlas.Proofs.ReferenceScan

/-!
# Braces cut a text

A brace stands in no reference and in no branch opener. This file proves for each of their patterns
that it reads the same in front of a brace as at the end of the text. Since a word may start after a
brace, the search behind it goes on as if the text started there, so what is found on the two sides
of a brace is found independently.
-/

namespace ClassAtlas

/-! ## Searches that stop before a mark -/

namespace Text

/-- The pattern reads the same in front of the mark as at the end of the text. -/
def Recogniser.StopsBefore {α : Type} (pattern : Recogniser α) (mark : Char) : Prop :=
  ∀ before front back, pattern before (front ++ mark :: back) =
    (pattern before front).map fun (found, after) => (found, after ++ mark :: back)

section Search

variable {α : Type} {pattern : Recogniser α} {mark : Char}

/-- A pattern that stops before a mark does not reach beyond it. -/
theorem Recogniser.StopsBefore.endsAt (hstop : pattern.StopsBefore mark) : pattern.EndsAt mark := by
  intro before front back
  rw [hstop before front back, hstop before front [], Option.map_map]
  congr 1
  funext result
  simp

/-- Nothing is read where nothing is left. -/
theorem Recogniser.Advances.eq_none_of_nil (hadvances : pattern.Advances) (before : List Char) :
    pattern before [] = none := by
  rw [Option.eq_none_iff_forall_ne_some]
  rintro ⟨found, after⟩ hread
  obtain ⟨piece, hne, hnil⟩ := hadvances before [] found after hread
  exact hne (List.append_eq_nil_iff.mp hnil.symm).1

/-- A mark at the end of the text makes no difference to a search under way. The induction is on the
text before the mark; the characters to be skipped never reach the mark. -/
theorem Recogniser.StopsBefore.occurrencesFrom_concat (hstop : pattern.StopsBefore mark)
    (hadvances : pattern.Advances) (before front : List Char) (skip : Nat)
    (hskip : skip ≤ front.length) :
    occurrencesFrom pattern before skip (front ++ [mark]) =
      occurrencesFrom pattern before skip front := by
  induction front generalizing before skip with
  | nil =>
    obtain rfl : skip = 0 := by simpa using hskip
    have hmark : pattern before [mark] = none := by
      rw [← List.nil_append [mark], hstop before [] [], hadvances.eq_none_of_nil]
      rfl
    simp only [List.nil_append, occurrencesFrom, hmark]
  | cons c front ih =>
    cases skip with
    | zero =>
      have hread := hstop before (c :: front) []
      rw [List.cons_append] at hread
      rw [List.cons_append, occurrencesFrom, occurrencesFrom, hread]
      cases pattern before (c :: front) with
      | none => exact ih (c :: before) 0 (Nat.zero_le _)
      | some result =>
        obtain ⟨found, after⟩ := result
        have hlength :
            (front ++ [mark]).length - (after ++ [mark]).length = front.length - after.length := by
          simp only [List.length_append, List.length_singleton]
          omega
        simp only [Option.map_some, hlength]
        rw [ih (c :: before) _ (Nat.sub_le _ _)]
    | succ skip => exact ih (c :: before) skip (Nat.le_of_succ_le_succ hskip)

/-- **A mark before which a pattern stops divides the occurrences** into those of the two texts on
its sides. -/
theorem Recogniser.StopsBefore.occurrences_append (hstop : pattern.StopsBefore mark)
    (hadvances : pattern.Advances) (hlocal : pattern.Local) (hmark : isWordChar mark = false)
    (front back : List Char) :
    occurrences pattern (front ++ mark :: back) =
      occurrences pattern front ++ occurrences pattern back := by
  have hfront : occurrences pattern (front ++ [mark]) = occurrences pattern front :=
    hstop.occurrencesFrom_concat hadvances [] front 0 (Nat.zero_le _)
  rw [hstop.endsAt.occurrences_append hlocal hmark, hfront]

end Search

end Text

namespace Source

open ClassAtlas.Text

/-! ## References -/

/-- Creations see only whether a word may start before them. -/
theorem local_creation : creation.Local := by
  intro before before' text h
  rw [creation, creation, afterKeyword?, afterKeyword?, h]

/-- Member accesses see only whether a word may start before them. -/
theorem local_memberAccess : memberAccess.Local := by
  intro before before' text h
  rw [memberAccess, memberAccess, typeMention, typeMention, h]

/-- Declarations see only whether a word may start before them. -/
theorem local_declarationBefore (marks : List Char) : (declarationBefore marks).Local := by
  intro before before' text h
  rw [declarationBefore, declarationBefore, typeMention, typeMention, h]

section Marks

variable {mark : Char} (hmark : endsTypeText mark = true)

include hmark

/-- A type name ends before a mark, so what follows the mark makes no difference to it. -/
theorem typeMention_append_mark (before front back : List Char) :
    typeMention before (front ++ mark :: back) =
      (typeMention before front).map fun (type, rest) => (type, rest ++ mark :: back) := by
  rw [typeMention, typeMention]
  split
  · exact name?_append_mark hmark (not_start_of_endsTypeText hmark).2 front back
  · rfl

/-- A creation does not reach to a mark. -/
theorem stopsBefore_creation : creation.StopsBefore mark := by
  intro before front back
  have hkeyword : mark ∉ ['n', 'e', 'w'] := by
    rcases endsTypeText_iff.mp hmark with rfl | rfl | rfl | rfl | rfl | rfl <;> decide
  rw [creation, creation, afterKeyword?, afterKeyword?]
  split
  · rw [isPrefixOf?_append_mark hkeyword]
    cases List.isPrefixOf? ['n', 'e', 'w'] front with
    | none => rfl
    | some rest =>
      simp only [Option.map_some, Option.bind_some, afterBlankRun?_append_mark hmark]
      cases afterBlankRun? rest with
      | none => rfl
      | some rest => exact name?_append_mark hmark (not_start_of_endsTypeText hmark).2 rest back
  · rfl

/-- A member access does not reach to a mark: a dot and a name are none. -/
theorem stopsBefore_memberAccess : memberAccess.StopsBefore mark := by
  intro before front back
  have hdot : mark ∉ ['.'] := by
    rcases endsTypeText_iff.mp hmark with rfl | rfl | rfl | rfl | rfl | rfl <;> decide
  rw [memberAccess, memberAccess, typeMention_append_mark hmark]
  cases typeMention before front with
  | none => rfl
  | some mention =>
    simp only [Option.map_some, afterMark?_append_of_not_mem hmark hdot]
    cases afterMark? ['.'] mention.2 with
    | none => rfl
    | some rest =>
      simp only [Option.map_some, afterBlanks_append_mark hmark]
      cases afterBlanks rest with
      | nil => simp [(not_start_of_endsTypeText hmark).1]
      | cons c rest =>
        simp only [List.cons_append]
        split <;> rfl

/-- A declaration does not reach to a mark other than those that may end it. -/
theorem stopsBefore_declarationBefore {marks : List Char} (hnot : mark ∉ marks) :
    (declarationBefore marks).StopsBefore mark := by
  intro before front back
  have hstart : isLowerStart mark = false := by
    rcases endsTypeText_iff.mp hmark with rfl | rfl | rfl | rfl | rfl | rfl <;> decide
  rw [declarationBefore, declarationBefore, typeMention_append_mark hmark]
  cases typeMention before front with
  | none => rfl
  | some mention =>
    simp only [Option.map_some, afterDeclared?_append_of_not_mem hmark hstart hnot, Option.map_map]
    rfl

end Marks

/-! ## Branch openers -/

/-- Branch openers see only whether a word may start before them. -/
theorem local_branchOpener : branchOpener.Local := by
  intro before before' text h
  rw [branchOpener, branchOpener, h]

/-- The branching keywords differ in their first letters, so only one of them can start a text. -/
theorem afterOneOf?_branchWords_eq_some_iff {text rest : List Char} :
    afterOneOf? branchWords text = some rest ↔ ∃ word ∈ branchWords, text = word ++ rest := by
  constructor
  · intro h
    obtain ⟨word, hmem, hread⟩ := List.exists_of_findSome?_eq_some h
    exact ⟨word, hmem, (List.isPrefixOf?_eq_some_iff_append_eq.mp hread).symm⟩
  · rintro ⟨word, hmem, rfl⟩
    simp only [branchWords, List.mem_cons, List.not_mem_nil, or_false] at hmem
    rcases hmem with rfl | rfl | rfl | rfl <;> rfl

/-- A branch is opened by one of the keywords at the start of a word, blanks and a parenthesis. -/
theorem branchOpener_eq_some_iff {before text rest : List Char} :
    branchOpener before text = some ((), rest) ↔
      atWordStart before = true ∧ ∃ word ∈ branchWords, ∃ gap, IsGap gap ∧
        text = word ++ (gap ++ '(' :: rest) := by
  constructor
  · intro h
    rw [branchOpener] at h
    split at h
    · rename_i hword
      refine ⟨hword, ?_⟩
      split at h
      · cases h
      · rename_i after hafter
        obtain ⟨word, hmem, rfl⟩ := afterOneOf?_branchWords_eq_some_iff.mp hafter
        obtain ⟨gap, hgap, hsplit, -⟩ := exists_gap after
        split at h
        · rename_i opened hopen
          cases h
          exact ⟨word, hmem, gap, hgap, by rw [hsplit, hopen]⟩
        · cases h
    · cases h
  · rintro ⟨hword, word, hmem, gap, hgap, rfl⟩
    have hafter : afterBlanks (gap ++ '(' :: rest) = '(' :: rest := by
      refine afterBlanks_append hgap fun c hc => ?_
      obtain rfl := Option.some.inj hc
      decide
    rw [branchOpener, if_pos hword, afterOneOf?_branchWords_eq_some_iff.mpr ⟨word, hmem, rfl⟩]
    simp only [hafter]

/-- A branch opener takes up at least its parenthesis. -/
theorem advances_branchOpener : branchOpener.Advances := by
  intro before text found rest h
  obtain ⟨-, word, -, gap, -, rfl⟩ := branchOpener_eq_some_iff.mp h
  exact ⟨word ++ (gap ++ ['(']), by simp, by simp⟩

/-- A branch opener does not reach to a mark other than its parenthesis. -/
theorem stopsBefore_branchOpener {mark : Char} (hmark : endsTypeText mark = true)
    (hopen : mark ≠ '(') :
    branchOpener.StopsBefore mark := by
  intro before front back
  have hwords : ∀ word ∈ branchWords, mark ∉ word := by
    rcases endsTypeText_iff.mp hmark with rfl | rfl | rfl | rfl | rfl | rfl <;> decide
  have hword : afterOneOf? branchWords (front ++ mark :: back) =
      (afterOneOf? branchWords front).map (· ++ mark :: back) :=
    findSome?_eq_map fun word hmem => isPrefixOf?_append_mark (hwords word hmem) front back
  rw [branchOpener, branchOpener, hword]
  split
  · cases afterOneOf? branchWords front with
    | none => rfl
    | some after =>
      simp only [Option.map_some, afterBlanks_append_mark hmark]
      cases afterBlanks after with
      | nil => simp [hopen]
      | cons c rest =>
        by_cases hc : c = '('
        · subst hc
          rfl
        · simp [hc]
  · rfl

/-! ## The two sides of a brace -/

section Braces

variable {brace : Char} (hbrace : brace = '{' ∨ brace = '}')

include hbrace

/-- Both braces are marks that end a type. -/
theorem endsTypeText_of_brace : endsTypeText brace = true := by
  rcases hbrace with rfl | rfl <;> rfl

/-- No pattern of references reads a brace. -/
theorem stopsBefore_of_mem_referencePatterns {pattern : Recogniser (List Char)}
    (h : pattern ∈ referencePatterns) :
    pattern.StopsBefore brace := by
  have hmark := endsTypeText_of_brace hbrace
  simp only [referencePatterns, List.mem_cons, List.not_mem_nil, or_false] at h
  rcases h with rfl | rfl | rfl | rfl
  · exact stopsBefore_creation hmark
  · exact stopsBefore_memberAccess hmark
  · refine stopsBefore_declarationBefore hmark ?_
    rcases hbrace with rfl | rfl <;> decide
  · refine stopsBefore_declarationBefore hmark ?_
    rcases hbrace with rfl | rfl <;> decide

omit hbrace in
/-- All patterns of references see only whether a word may start before them. -/
theorem local_of_mem_referencePatterns {pattern : Recogniser (List Char)}
    (h : pattern ∈ referencePatterns) :
    pattern.Local := by
  rcases mem_referencePatterns h with rfl | rfl | ⟨marks, -, rfl⟩
  · exact local_creation
  · exact local_memberAccess
  · exact local_declarationBefore marks

/-- A pattern of references reads on the two sides of a brace what it reads in the two texts. -/
theorem occurrences_append_brace {pattern : Recogniser (List Char)}
    (h : pattern ∈ referencePatterns) (front back : List Char) :
    occurrences pattern (front ++ brace :: back) =
      occurrences pattern front ++ occurrences pattern back := by
  have hmark : isWordChar brace = false :=
    not_isWordChar_of_endsTypeText (endsTypeText_of_brace hbrace)
  exact (stopsBefore_of_mem_referencePatterns hbrace h).occurrences_append
    (advances_of_mem_referencePatterns h)
    (local_of_mem_referencePatterns h) hmark front back

/-- A brace divides the references of a text into those before it and those after it. -/
theorem mem_references_append_brace {own name : String} {known : NameSet} (front back : List Char) :
    name ∈ references own known (front ++ brace :: back) ↔
      name ∈ references own known front ∨ name ∈ references own known back := by
  rw [mem_references, mem_references, mem_references, ← or_and_right]
  refine and_congr_left fun _ => ?_
  constructor
  · rintro ⟨pattern, hpattern, found, hfound, hname⟩
    rw [occurrences_append_brace hbrace hpattern, List.mem_append] at hfound
    rcases hfound with hfound | hfound
    · exact .inl ⟨pattern, hpattern, found, hfound, hname⟩
    · exact .inr ⟨pattern, hpattern, found, hfound, hname⟩
  · rintro (⟨pattern, hpattern, found, hfound, hname⟩ | ⟨pattern, hpattern, found, hfound, hname⟩)
    · refine ⟨pattern, hpattern, found, ?_, hname⟩
      rw [occurrences_append_brace hbrace hpattern]
      exact List.mem_append_left _ hfound
    · refine ⟨pattern, hpattern, found, ?_, hname⟩
      rw [occurrences_append_brace hbrace hpattern]
      exact List.mem_append_right _ hfound

/-- **A brace cuts the text in two for both scans.** The references of a text are those on the two
sides of a brace together, and its branches are added up. -/
theorem scans_append_brace (own : String) (known : NameSet) (front back : List Char) :
    references own known (front ++ brace :: back) =
      (references own known front).union (references own known back) ∧
    branchCount (front ++ brace :: back) = branchCount front + branchCount back := by
  have hmark := endsTypeText_of_brace hbrace
  have hopen : brace ≠ '(' := by rcases hbrace with rfl | rfl <;> decide
  constructor
  · apply NameSet.ext_mem
    intro name
    rw [mem_references_append_brace hbrace, NameSet.mem_union]
  · rw [branchCount,
      (stopsBefore_branchOpener hmark hopen).occurrences_append advances_branchOpener
        local_branchOpener
      (not_isWordChar_of_endsTypeText hmark), List.length_append]
    rfl

end Braces

/-- A declaration before a brace lacks the mark that would end it, although one stands right behind
the brace. -/
theorem scans_append_brace_unended :
    ('}' = '{' ∨ '}' = '}') ∧
    references "M" (NameSet.ofList ["A", "B", "C"])
      ("if (new B) A a".toList ++ '}' :: "; for (C.run())".toList) =
      NameSet.ofList ["B", "C"] ∧
    branchCount ("if (new B) A a".toList ++ '}' :: "; for (C.run())".toList) = 2 := by
  have hbrace : '}' = '{' ∨ '}' = '}' := .inr rfl
  obtain ⟨hreferences, hbranches⟩ := scans_append_brace hbrace "M" (NameSet.ofList ["A", "B", "C"])
    "if (new B) A a".toList "; for (C.run())".toList
  rw [hreferences, hbranches]
  exact ⟨hbrace, by decide +kernel, by decide +kernel⟩

end Source

end ClassAtlas
