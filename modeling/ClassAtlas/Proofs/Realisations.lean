import ClassAtlas.Source.Header
import ClassAtlas.Proofs.Nesting
import ClassAtlas.Proofs.Spellings

/-!
# Realisations

The clause of realisation is cut at every comma, those between the type arguments of an entry
included, and the type arguments are removed only from the pieces. A name is therefore listed if it
stands at the front of the clause or after any of its commas, and the next character is a comma, an
opening bracket or none. In the header of a class these are the names of the entries and, besides,
each type argument other than the first that is followed by another argument or by type arguments of
its own. A class name may itself end in the keyword, after a dollar sign. Then the clause starts one
word too early, and the name of the first entry is lost.
-/

namespace ClassAtlas.Text

/-! ## Pieces between separators -/

/-- The first piece reaches up to the first separator. Every other piece follows a separator and
reaches up to the next one. -/
theorem exists_splitAt {α : Type} (p : α → Bool) (text : List α) :
    ∃ pieces, splitAt p text = (text.takeWhile fun c => !p c) :: pieces ∧
      ∀ piece, piece ∈ pieces ↔
        ∃ front c rest, text = front ++ c :: rest ∧ p c = true ∧
          piece = rest.takeWhile fun c => !p c := by
  induction text with
  | nil => exact ⟨[], rfl, fun piece => by simp⟩
  | cons c text ih =>
    obtain ⟨pieces, hsplit, hmem⟩ := ih
    have hlater (piece : List α) :
        (∃ front d rest, c :: text = front ++ d :: rest ∧ p d = true ∧
          piece = rest.takeWhile fun c => !p c) ↔
          (p c = true ∧ piece = text.takeWhile fun c => !p c) ∨ piece ∈ pieces := by
      rw [hmem]
      constructor
      · rintro ⟨front, d, rest, heq, hd, hpiece⟩
        cases front with
        | nil =>
          obtain ⟨rfl, rfl⟩ := List.cons.inj heq
          exact .inl ⟨hd, hpiece⟩
        | cons e front =>
          obtain ⟨-, rfl⟩ := List.cons.inj heq
          exact .inr ⟨front, d, rest, rfl, hd, hpiece⟩
      · rintro (⟨hc, hpiece⟩ | ⟨front, d, rest, rfl, hd, hpiece⟩)
        · exact ⟨[], c, text, rfl, hc, hpiece⟩
        · exact ⟨c :: front, d, rest, rfl, hd, hpiece⟩
    by_cases hc : p c = true
    · refine ⟨(text.takeWhile fun c => !p c) :: pieces, by simp [splitAt, hsplit, hc],
        fun piece => ?_⟩
      rw [hlater, List.mem_cons, and_iff_right hc]
    · refine ⟨pieces, by simp [splitAt, hsplit, hc], fun piece => ?_⟩
      rw [hlater, or_iff_right fun h => hc h.1]

/-- A separator cuts a text into the pieces before it and those after it. -/
theorem splitAt_append {α : Type} {p : α → Bool} {c : α} (hc : p c = true) (front back : List α) :
    splitAt p (front ++ c :: back) = splitAt p front ++ splitAt p back := by
  induction front with
  | nil =>
    obtain ⟨pieces, hsplit, -⟩ := exists_splitAt p back
    simp [splitAt, hsplit, hc]
  | cons d front ih =>
    obtain ⟨pieces, hsplit, -⟩ := exists_splitAt p front
    by_cases hd : p d = true <;> simp [splitAt, ih, hsplit, hd]

/-! ## The first occurrence -/

/-- The search for the first occurrence passes over what holds none. -/
theorem firstOccurrenceFrom_append {α : Type} {pattern : Recogniser α} {before passed : List Char}
    (rest : List Char) (hnone : ∀ front c back, passed = front ++ c :: back →
      pattern (front.reverse ++ before) (c :: (back ++ rest)) = none) :
    firstOccurrenceFrom pattern before (passed ++ rest) =
      firstOccurrenceFrom pattern (passed.reverse ++ before) rest := by
  induction passed generalizing before with
  | nil => rfl
  | cons c passed ih =>
    have hfirst : pattern before (c :: (passed ++ rest)) = none := hnone [] c passed rfl
    rw [List.cons_append, firstOccurrenceFrom, hfirst, List.reverse_cons, List.append_assoc,
      List.singleton_append]
    refine ih fun front d back heq => ?_
    have hlater := hnone (c :: front) d back (by rw [heq]; rfl)
    rwa [List.reverse_cons, List.append_assoc] at hlater

/-- What occurs at the very start is the first occurrence. -/
theorem firstOccurrenceFrom_eq_some {α : Type} {pattern : Recogniser α}
    {before text after : List Char} {found : α} (hne : text ≠ [])
    (hfound : pattern before text = some (found, after)) :
    firstOccurrenceFrom pattern before text = some found := by
  obtain ⟨c, rest, rfl⟩ := List.exists_cons_of_ne_nil hne
  rw [firstOccurrenceFrom, hfound]

end ClassAtlas.Text

namespace ClassAtlas.Source

open ClassAtlas.Text

/-! ## Blanks around a text -/

/-- A text is what trimming leaves with blanks around it. -/
theorem exists_trim (text : List Char) :
    ∃ gap space, IsGap gap ∧ IsGap space ∧ text = gap ++ (trim text ++ space) := by
  obtain ⟨gap, hgap, htext, -⟩ := exists_gap text
  obtain ⟨space, hspace, hreverse, -⟩ := exists_gap (afterBlanks text).reverse
  refine ⟨gap, space.reverse, hgap, fun c hc => hspace c (List.mem_reverse.mp hc), ?_⟩
  have hafter : afterBlanks text = trim text ++ space.reverse := by
    rw [trim, ← List.reverse_append, ← hreverse, List.reverse_reverse]
  rw [← hafter, ← htext]

/-- Blanks at the end are trimmed. -/
theorem trim_append_gap {gap : List Char} (hgap : IsGap gap) (text : List Char) :
    trim (text ++ gap) = trim text := by
  have hnone : gap.dropWhile isBlank = [] := List.dropWhile_eq_nil_iff.mpr hgap
  have hreverse : ∀ c ∈ gap.reverse, isBlank c = true := fun c hc => hgap c (List.mem_reverse.mp hc)
  simp only [trim, afterBlanks, List.dropWhile_append]
  split
  · rename_i hempty
    rw [hnone, List.isEmpty_iff.mp hempty]
  · rw [List.reverse_append, List.dropWhile_append_of_pos hreverse]

/-- Blanks at the front are trimmed. -/
theorem trim_gap_append {gap : List Char} (hgap : IsGap gap) (text : List Char) :
    trim (gap ++ text) = trim text := by
  have hafter : afterBlanks (gap ++ text) = afterBlanks text := List.dropWhile_append_of_pos hgap
  rw [trim, hafter, ← trim]

/-- A text without blanks stays as it is. -/
theorem trim_of_forall {text : List Char} (h : ∀ c ∈ text, isBlank c = false) :
    trim text = text := by
  have hstays {text : List Char} (h : ∀ c ∈ text, isBlank c = false) : afterBlanks text = text :=
    afterBlanks_append (fun c hc => absurd hc List.not_mem_nil) fun c hc =>
      h c (List.mem_of_mem_head? hc)
  rw [trim, hstays h, hstays fun c hc => h c (List.mem_reverse.mp hc), List.reverse_reverse]

/-! ## Listed names -/

/-- The name is that of a piece of the clause. -/
def Listed (name clause : List Char) : Prop :=
  isTypeName name = true ∧ ∃ piece ∈ splitAt (· = ',') clause, entryName piece = name

/-- The name stands in front, with blanks around it, and a comma, an opening bracket or nothing
follows. -/
def StandsFirst (name text : List Char) : Prop :=
  IsName isTypeStart name ∧ ∃ gap space rest, IsGap gap ∧ IsGap space ∧
    text = gap ++ (name ++ (space ++ rest)) ∧ ∀ c ∈ rest.head?, c = ',' ∨ c = '<'

/-- The name stands in front of what follows one of the commas. -/
def StandsAfterComma (name text : List Char) : Prop :=
  ∃ front rest, text = front ++ ',' :: rest ∧ StandsFirst name rest

/-- The interfaces are the names that the first clause lists. -/
theorem mem_interfaces_iff {name : String} {text : List Char} :
    name ∈ interfaces text ↔
      ∃ clause, firstOccurrence realisation text = some clause ∧ Listed name.toList clause := by
  unfold interfaces
  split
  · rename_i hnone
    exact iff_of_false (NameSet.not_mem_empty name) (by simp [hnone])
  · rename_i clause hsome
    rw [NameSet.mem_ofList]
    constructor
    · intro h
      obtain ⟨entry, hentry, rfl⟩ := List.mem_map.mp h
      obtain ⟨hmap, hname⟩ := List.mem_filter.mp hentry
      obtain ⟨piece, hpiece, rfl⟩ := List.mem_map.mp hmap
      rw [String.toList_ofList]
      exact ⟨clause, hsome, hname, piece, hpiece, rfl⟩
    · rintro ⟨clause', hclause, hname, piece, hpiece, heq⟩
      obtain rfl : clause = clause' := Option.some.inj (hsome.symm.trans hclause)
      refine List.mem_map.mpr ⟨name.toList, List.mem_filter.mpr ⟨?_, hname⟩, String.ofList_toList⟩
      exact List.mem_map.mpr ⟨piece, hpiece, heq⟩

/-- A character that neither ends an entry nor starts its type arguments. -/
def inEntryName (c : Char) : Bool :=
  c ≠ ',' ∧ c ≠ '<'

/-- Blanks do not end the name of an entry. -/
theorem inEntryName_of_isBlank {c : Char} (h : isBlank c = true) : inEntryName c = true := by
  refine decide_eq_true ⟨?_, ?_⟩ <;> rintro rfl <;> exact absurd h (by decide)

/-- Characters of names do not end the name of an entry. -/
theorem inEntryName_of_isNameChar {c : Char} (h : isNameChar c = true) : inEntryName c = true := by
  refine decide_eq_true ⟨?_, ?_⟩ <;> rintro rfl <;> exact absurd h (by decide)

/-- Only a comma or an opening bracket ends the name of an entry. -/
theorem not_inEntryName_iff {c : Char} : inEntryName c = false ↔ c = ',' ∨ c = '<' := by
  simp only [inEntryName, decide_eq_false_iff_not]
  tauto

/-- The name of the first piece is read up to the first comma or opening bracket. -/
theorem entryName_takeWhile (text : List Char) :
    entryName (text.takeWhile fun c => !decide (c = ',')) = trim (text.takeWhile inEntryName) := by
  rw [entryName, List.takeWhile_takeWhile]
  congr 2
  funext c
  simp [inEntryName, and_comm]

/-- The name that stands first is found by reading up to a comma or a bracket and trimming. -/
theorem standsFirst_iff {name text : List Char} :
    StandsFirst name text ↔ isTypeName name = true ∧ trim (text.takeWhile inEntryName) = name := by
  rw [isTypeName_iff]
  refine and_congr_right fun hname => ?_
  have hchars := hname.nameChars_of_type
  constructor
  · rintro ⟨gap, space, rest, hgap, hspace, rfl, hrest⟩
    have hrun : ∀ c ∈ gap ++ (name ++ space), inEntryName c = true := by
      intro c hc
      simp only [List.mem_append] at hc
      rcases hc with hc | hc | hc
      · exact inEntryName_of_isBlank (hgap c hc)
      · exact inEntryName_of_isNameChar (hchars c hc)
      · exact inEntryName_of_isBlank (hspace c hc)
    have htext : gap ++ (name ++ (space ++ rest)) = gap ++ (name ++ space) ++ rest := by
      simp only [List.append_assoc]
    have hstop : ∀ c ∈ rest.head?, inEntryName c = false :=
      fun c hc => not_inEntryName_iff.mpr (hrest c hc)
    rw [(takeWhile_dropWhile_eq_iff.mpr ⟨hrun, htext, hstop⟩).1, trim_gap_append hgap,
      trim_append_gap hspace]
    exact trim_of_forall fun c hc => not_isBlank_of_isNameChar (hchars c hc)
  · intro htrim
    obtain ⟨-, htext, hrest⟩ :=
      takeWhile_dropWhile_eq_iff.mp ⟨rfl, (rfl : text.dropWhile inEntryName = _)⟩
    obtain ⟨gap, space, hgap, hspace, hrun⟩ := exists_trim (text.takeWhile inEntryName)
    rw [htrim] at hrun
    refine ⟨gap, space, _, hgap, hspace, ?_, fun c hc => not_inEntryName_iff.mp (hrest c hc)⟩
    rw [hrun] at htext
    simpa only [List.append_assoc] using htext

/-- **What a clause lists** is what stands in front of it or after one of its commas. -/
theorem listed_iff {name clause : List Char} :
    Listed name clause ↔ StandsFirst name clause ∨ StandsAfterComma name clause := by
  obtain ⟨pieces, hsplit, hmem⟩ := exists_splitAt (fun c => decide (c = ',')) clause
  have hfirst {text : List Char} : StandsFirst name text ↔
      isTypeName name = true ∧ entryName (text.takeWhile fun c => !decide (c = ',')) = name := by
    rw [standsFirst_iff, entryName_takeWhile]
  rw [Listed, hsplit]
  constructor
  · rintro ⟨hname, piece, hpiece, heq⟩
    rcases List.mem_cons.mp hpiece with rfl | hpiece
    · exact .inl (hfirst.mpr ⟨hname, heq⟩)
    · obtain ⟨front, c, rest, rfl, hc, rfl⟩ := (hmem piece).mp hpiece
      obtain rfl := of_decide_eq_true hc
      exact .inr ⟨front, rest, rfl, hfirst.mpr ⟨hname, heq⟩⟩
  · rintro (hstands | ⟨front, rest, rfl, hstands⟩)
    · obtain ⟨hname, heq⟩ := hfirst.mp hstands
      exact ⟨hname, _, List.mem_cons_self, heq⟩
    · obtain ⟨hname, heq⟩ := hfirst.mp hstands
      exact ⟨hname, _, List.mem_cons_of_mem _ ((hmem _).mpr ⟨front, ',', rest, rfl, rfl, rfl⟩), heq⟩

/-- A comma divides a clause into two that list the same names together. -/
theorem listed_append {name front back : List Char} :
    Listed name (front ++ ',' :: back) ↔ Listed name front ∨ Listed name back := by
  have hsplit := splitAt_append (p := fun c => decide (c = ',')) (decide_eq_true rfl) front back
  simp only [Listed, hsplit, List.mem_append, or_and_right, exists_or, and_or_left]

/-! What holds no comma makes no difference to the commas after it or before it, and blanks at
either end of a clause make no difference at all. -/

/-- Text without a comma in front of a clause makes no difference to what stands after its
commas. -/
theorem standsAfterComma_append_left {name front text : List Char} (hfront : ',' ∉ front) :
    StandsAfterComma name (front ++ text) ↔ StandsAfterComma name text := by
  constructor
  · rintro ⟨before, rest, heq, hstands⟩
    rcases List.append_eq_append_iff.mp heq with ⟨more, -, htext⟩ | ⟨more, rfl, hrest⟩
    · exact ⟨more, rest, htext, hstands⟩
    · rcases List.cons_eq_append_iff.mp hrest with ⟨-, htext⟩ | ⟨back, rfl, -⟩
      · exact ⟨[], rest, htext, hstands⟩
      · exact absurd (by simp) hfront
  · rintro ⟨before, rest, rfl, hstands⟩
    exact ⟨front ++ before, rest, by rw [List.append_assoc], hstands⟩

section Gaps

variable {name gap text : List Char} (hgap : IsGap gap)

include hgap

/-- No blank is a comma. -/
theorem comma_not_mem_gap : ',' ∉ gap :=
  fun hmem => absurd (hgap ',' hmem) (by decide)

/-- Blanks in front make no difference to the name that stands first. -/
theorem standsFirst_gap_append : StandsFirst name (gap ++ text) ↔ StandsFirst name text := by
  have hrun : (gap ++ text).takeWhile inEntryName = gap ++ text.takeWhile inEntryName :=
    List.takeWhile_append_of_pos fun c hc => inEntryName_of_isBlank (hgap c hc)
  rw [standsFirst_iff, standsFirst_iff, hrun, trim_gap_append hgap]

/-- Blanks at the end make no difference to the name that stands first. -/
theorem standsFirst_append_gap : StandsFirst name (text ++ gap) ↔ StandsFirst name text := by
  have hall : gap.takeWhile inEntryName = gap :=
    List.takeWhile_eq_self_iff.mpr fun c hc => inEntryName_of_isBlank (hgap c hc)
  have htrim : trim ((text ++ gap).takeWhile inEntryName) = trim (text.takeWhile inEntryName) := by
    rw [List.takeWhile_append, hall]
    split
    · rename_i hlength
      rw [(List.takeWhile_prefix inEntryName).eq_of_length hlength, trim_append_gap hgap]
    · rfl
  rw [standsFirst_iff, standsFirst_iff, htrim]

/-- Blanks at the end make no difference to the names after commas. -/
theorem standsAfterComma_append_gap :
    StandsAfterComma name (text ++ gap) ↔ StandsAfterComma name text := by
  constructor
  · rintro ⟨front, rest, heq, hstands⟩
    rcases List.append_eq_append_iff.mp heq with ⟨more, -, rfl⟩ | ⟨more, htext, hrest⟩
    · exact absurd (by simp) (comma_not_mem_gap hgap)
    · rcases List.cons_eq_append_iff.mp hrest with ⟨-, rfl⟩ | ⟨back, rfl, rfl⟩
      · exact absurd (by simp) (comma_not_mem_gap hgap)
      · exact ⟨front, back, htext, (standsFirst_append_gap hgap).mp hstands⟩
  · rintro ⟨front, rest, rfl, hstands⟩
    exact ⟨front, rest ++ gap, by simp, (standsFirst_append_gap hgap).mpr hstands⟩

/-- Blanks in front of a clause make no difference to what it lists. -/
theorem listed_gap_append : Listed name (gap ++ text) ↔ Listed name text := by
  rw [listed_iff, listed_iff, standsFirst_gap_append hgap,
    standsAfterComma_append_left (comma_not_mem_gap hgap)]

/-- Blanks at the end of a clause make no difference to what it lists. -/
theorem listed_append_gap : Listed name (text ++ gap) ↔ Listed name text := by
  rw [listed_iff, listed_iff, standsFirst_append_gap hgap, standsAfterComma_append_gap hgap]

end Gaps

/-! ## Entries -/

/-- An entry of a clause: the name of a type with the type arguments after it, if there are any. Of
these only the opening bracket counts, so they need not be balanced. -/
structure Realised where
  name : List Char
  arguments : List Char
  name_isName : IsName isTypeStart name
  arguments_open : ∀ c ∈ arguments.head?, c = '<'
  brace_not_mem : '{' ∉ arguments

namespace Realised

/-- The name and the type arguments after it. -/
def text (entry : Realised) : List Char :=
  entry.name ++ entry.arguments

/-- The name of an entry has only characters that may stand in a name. -/
theorem nameChars (entry : Realised) : ∀ c ∈ entry.name, isNameChar c = true :=
  entry.name_isName.nameChars_of_type

/-- A character that is no part of a name is not in the name of the entry. -/
theorem not_mem_name (entry : Realised) {c : Char} (hc : isNameChar c = false) :
    c ∉ entry.name := by
  intro hmem
  rw [entry.nameChars c hmem] at hc
  cases hc

/-- No entry holds an opening brace. -/
theorem brace_not_mem_text (entry : Realised) : '{' ∉ entry.text := by
  rw [text, List.mem_append, not_or]
  exact ⟨entry.not_mem_name (by decide), entry.brace_not_mem⟩

/-- Only the name of the entry stands in front of it. -/
theorem standsFirst_text (entry : Realised) {name : List Char} :
    StandsFirst name entry.text ↔ name = entry.name := by
  have hstop : ∀ c ∈ entry.arguments.head?, inEntryName c = false :=
    fun c hc => not_inEntryName_iff.mpr (.inr (entry.arguments_open c hc))
  have hrun : entry.text.takeWhile inEntryName = entry.name :=
    (takeWhile_dropWhile_eq_iff.mpr
      ⟨fun c hc => inEntryName_of_isNameChar (entry.nameChars c hc), rfl, hstop⟩).1
  rw [standsFirst_iff, hrun,
    trim_of_forall fun c hc => not_isBlank_of_isNameChar (entry.nameChars c hc)]
  constructor
  · rintro ⟨-, rfl⟩
    rfl
  · rintro rfl
    exact ⟨isTypeName_iff.mpr entry.name_isName, rfl⟩

/-- An entry lists its name and whatever stands after a comma of its type arguments. -/
theorem listed_text (entry : Realised) {name : List Char} :
    Listed name entry.text ↔ name = entry.name ∨ StandsAfterComma name entry.arguments := by
  rw [listed_iff, standsFirst_text, text,
    standsAfterComma_append_left (entry.not_mem_name (by decide))]

end Realised

/-- A space is blank. -/
theorem isGap_space : IsGap [' '] := by
  intro c hc
  obtain rfl := List.mem_singleton.mp hc
  rfl

/-- The entries with a comma and a space between them. -/
def clauseText (entries : List Realised) : List Char :=
  [',', ' '].intercalate (entries.map Realised.text)

/-- The first entry stands before the others with a comma and a space between. -/
theorem clauseText_cons_cons (entry next : Realised) (more : List Realised) :
    clauseText (entry :: next :: more) =
      entry.text ++ ',' :: ([' '] ++ clauseText (next :: more)) := by
  simp [clauseText]

/-- A clause lists what its entries list. -/
theorem listed_clauseText {name : List Char} {entries : List Realised} :
    Listed name (clauseText entries) ↔ ∃ entry ∈ entries, Listed name entry.text := by
  induction entries with
  | nil =>
    have hnone : ¬ Listed name [] := by
      rw [listed_iff, standsFirst_iff]
      rintro (⟨hname, rfl⟩ | ⟨front, rest, hempty, -⟩)
      · cases hname
      · cases front <;> cases hempty
    exact iff_of_false hnone (by simp)
  | cons entry more ih =>
    cases more with
    | nil => simp [clauseText]
    | cons next more =>
      rw [clauseText_cons_cons, listed_append, listed_gap_append isGap_space,
        List.exists_mem_cons_iff]
      exact or_congr_right ih

/-- A clause holds no opening brace. -/
theorem brace_not_mem_clauseText (entries : List Realised) : '{' ∉ clauseText entries := by
  induction entries with
  | nil => simp [clauseText]
  | cons entry more ih =>
    cases more with
    | nil => simpa [clauseText] using entry.brace_not_mem_text
    | cons next more =>
      rw [clauseText_cons_cons]
      simp only [List.mem_append, List.mem_cons, List.not_mem_nil, or_false, not_or]
      exact ⟨entry.brace_not_mem_text, by decide, by decide, ih⟩

/-- A clause with an entry starts with a letter. -/
theorem exists_clauseText_eq (entry : Realised) (more : List Realised) :
    ∃ c rest, clauseText (entry :: more) = c :: rest ∧ isBlank c = false := by
  obtain ⟨first, letters, hname, -, -⟩ := entry.name_isName
  have hfirst : isBlank first = false :=
    not_isBlank_of_isNameChar (entry.nameChars first (by rw [hname]; exact List.mem_cons_self))
  cases more with
  | nil =>
    exact ⟨first, letters ++ entry.arguments, by simp [clauseText, Realised.text, hname], hfirst⟩
  | cons next more =>
    refine ⟨first,
      letters ++ entry.arguments ++ ',' :: ([' '] ++ clauseText (next :: more)), ?_, hfirst⟩
    rw [clauseText_cons_cons, Realised.text, hname]
    rfl

/-! ## The header of a class -/

/-- The last word of the name is the keyword for realisation. A dollar sign belongs to no word. -/
def EndsInKeyword (name : List Char) : Prop :=
  ∃ front, atWordStart front.reverse = true ∧ name = front ++ "implements".toList

/-- The header of a class with its clause, up to the opening brace, and the body after it. -/
def realisingHead (owner : List Char) (entries : List Realised) (body : List Char) : List Char :=
  (['c', 'l', 'a', 's', 's', ' '] ++ (owner ++ [' '])) ++
    ("implements".toList ++ ' ' :: (clauseText entries ++ ' ' :: '{' :: body))

/-- A clause is read where the keyword stands at the start of a word. -/
theorem realisation_eq_some_iff {before text clause rest : List Char} :
    realisation before text = some (clause, rest) ↔
      atWordStart before = true ∧ ∃ gap, gap ≠ [] ∧ IsGap gap ∧ (clause = [] → gap.length ≠ 1) ∧
        text = "implements".toList ++ (gap ++ (clause ++ rest)) ∧
        (∀ c ∈ (clause ++ rest).head?, isBlank c = false) ∧
        '{' ∉ clause ∧ ∀ c ∈ rest.head?, c = '{' := by
  constructor
  · intro h
    unfold realisation at h
    split at h
    · rename_i hword
      cases hkeyword : "implements".toList.isPrefixOf? text with
      | none =>
        rw [hkeyword] at h
        cases h
      | some after =>
        simp only [hkeyword] at h
        split_ifs at h with hblanks hsingle
        obtain ⟨hclause, hrest⟩ := Prod.mk.inj (Option.some.inj h)
        obtain ⟨hgap, hafter, hhead⟩ :=
          takeWhile_dropWhile_eq_iff.mp ⟨rfl, (rfl : after.dropWhile isBlank = _)⟩
        obtain ⟨hin, hsplit, hstop⟩ := takeWhile_dropWhile_eq_iff.mp ⟨hclause, hrest⟩
        have htext := List.isPrefixOf?_eq_some_iff_append_eq.mp hkeyword
        rw [afterBlanks] at hsplit
        rw [hsplit] at hafter hhead
        refine ⟨hword, after.takeWhile isBlank, ?_, hgap, ?_, ?_, hhead, ?_, ?_⟩
        · rintro hnil
          exact hblanks (by rw [hnil]; rfl)
        · rintro rfl hone
          exact hsingle (by rw [hclause, hone]; rfl)
        · rw [← htext, ← hafter]
        · intro hmem
          exact absurd (hin '{' hmem) (by decide)
        · intro c hc
          exact not_not.mp (of_decide_eq_false (hstop c hc))
    · cases h
  · rintro ⟨hword, gap, hne, hgap, hsingle, rfl, hhead, hbrace, hrest⟩
    have hkeyword :
        "implements".toList.isPrefixOf? ("implements".toList ++ (gap ++ (clause ++ rest))) =
          some (gap ++ (clause ++ rest)) := List.isPrefixOf?_eq_some_iff_append_eq.mpr rfl
    have hblanks : (gap ++ (clause ++ rest)).takeWhile isBlank = gap :=
      (takeWhile_dropWhile_eq_iff.mpr ⟨hgap, rfl, hhead⟩).1
    obtain ⟨hclause, hafter⟩ : (clause ++ rest).takeWhile (· ≠ '{') = clause ∧
        (clause ++ rest).dropWhile (· ≠ '{') = rest :=
      takeWhile_dropWhile_eq_iff.mpr
        ⟨fun c hc => decide_eq_true fun heq => hbrace (heq ▸ hc), rfl,
          fun c hc => decide_eq_false (not_not.mpr (hrest c hc))⟩
    have hlength : ¬ ((clause.isEmpty && decide (gap.length = 1)) = true) := by
      intro hone
      rw [Bool.and_eq_true, List.isEmpty_iff, decide_eq_true_eq] at hone
      exact hsingle hone.1 hone.2
    simp only [realisation, hword, if_true, hkeyword, hblanks, afterBlanks_append hgap hhead,
      hclause, hafter, List.isEmpty_iff, hne, if_false, hlength, Bool.false_eq_true]

/-- At the keyword the clause is read up to the brace, whatever it holds. -/
theorem realisation_keyword {before : List Char} (hword : atWordStart before = true) {c : Char}
    {clause : List Char} (hblank : isBlank c = false) (hbrace : '{' ∉ c :: clause)
    (body : List Char) :
    realisation before ("implements".toList ++ ' ' :: (c :: clause ++ ' ' :: '{' :: body)) =
      some (c :: clause ++ [' '], '{' :: body) := by
  refine realisation_eq_some_iff.mpr
    ⟨hword, [' '], List.cons_ne_nil _ _, isGap_space, fun hempty => ?_, by simp, fun d hd => ?_, ?_,
      fun d hd => ?_⟩
  · simp at hempty
  · obtain rfl := Option.some.inj hd
    exact hblank
  · rw [List.mem_append, not_or]
    exact ⟨hbrace, by decide⟩
  · exact (Option.some.inj hd).symm

/-- A run of name characters before another character is determined by the text. -/
theorem nameChars_unique {word word' rest rest' : List Char} {c c' : Char}
    (hword : ∀ d ∈ word, isNameChar d = true) (hword' : ∀ d ∈ word', isNameChar d = true)
    (hc : isNameChar c = false) (hc' : isNameChar c' = false)
    (h : word ++ c :: rest = word' ++ c' :: rest') : word = word' := by
  have hrun {word rest : List Char} {c : Char} (hword : ∀ d ∈ word, isNameChar d = true)
      (hc : isNameChar c = false) : (word ++ c :: rest).takeWhile isNameChar = word := by
    rw [List.takeWhile_append_of_pos hword, List.takeWhile_cons_of_neg (by simp [hc]),
      List.append_nil]
  rw [← hrun hword hc, h, hrun hword' hc']

/-- The keyword has only characters that may stand in a name. -/
theorem nameChars_keyword : ∀ c ∈ "implements".toList, isNameChar c = true :=
  List.all_eq_true.mp (by decide +kernel)

/-- In a name with a space after it a clause can only start where the keyword is left of the
name. -/
theorem name_eq_of_realisation {owner front back rest : List Char} {c : Char}
    (howner : ∀ d ∈ owner, isNameChar d = true)
    (hname : owner ++ [' '] = front ++ c :: back) {before : List Char}
    (hread : realisation before (c :: (back ++ rest)) ≠ none) :
    owner = front ++ "implements".toList := by
  obtain ⟨⟨clause, after⟩, hsome⟩ := Option.ne_none_iff_exists'.mp hread
  obtain ⟨-, gap, hne, hgap, -, htext, -⟩ := realisation_eq_some_iff.mp hsome
  obtain ⟨blank, blanks, rfl⟩ := List.exists_cons_of_ne_nil hne
  have hblank : isNameChar blank = false :=
    not_isNameChar_of_isBlank (hgap blank List.mem_cons_self)
  obtain rfl : c = 'i' := (List.cons.inj htext).1
  rcases back.eq_nil_or_concat with rfl | ⟨more, d, rfl⟩
  · have hlast := (List.append_inj' hname rfl).2
    exact absurd hlast (by decide)
  · have hsplit : owner ++ [' '] = (front ++ 'i' :: more) ++ [d] := by simpa using hname
    obtain ⟨howner_eq, hspace⟩ := List.append_inj' hsplit rfl
    obtain rfl : ' ' = d := (List.cons.inj hspace).1
    have hmore : ∀ e ∈ 'i' :: more, isNameChar e = true :=
      fun e he => howner e (by rw [howner_eq]; exact List.mem_append_right front he)
    have hruns : 'i' :: more ++ ' ' :: rest =
        "implements".toList ++ blank :: (blanks ++ (clause ++ after)) := by
      simpa using htext
    -- the rest of the name and the keyword are the same run of name characters
    rw [howner_eq, nameChars_unique hmore nameChars_keyword (by decide) hblank hruns]

/-- A word of the name starts where one starts in the header. -/
theorem atWordStart_class_append (piece : List Char) :
    atWordStart (['c', 'l', 'a', 's', 's', ' '] ++ piece).reverse = atWordStart piece.reverse := by
  rw [List.reverse_append]
  cases piece.reverse with
  | nil => rfl
  | cons d more => rfl

/-- Before the clause of the header, one is read only at the last word of the name. -/
theorem exists_of_realisation {owner : List Char} (howner : ∀ c ∈ owner, isNameChar c = true)
    {front back : List Char} {c : Char}
    (h : ['c', 'l', 'a', 's', 's', ' '] ++ (owner ++ [' ']) = front ++ c :: back) {rest : List Char}
    (hread : realisation front.reverse (c :: (back ++ rest)) ≠ none) :
    ∃ piece, front = ['c', 'l', 'a', 's', 's', ' '] ++ piece ∧
      atWordStart piece.reverse = true ∧ owner = piece ++ "implements".toList := by
  obtain ⟨⟨clause, after⟩, hsome⟩ := Option.ne_none_iff_exists'.mp hread
  obtain ⟨hword, gap, -, -, -, htext, -⟩ := realisation_eq_some_iff.mp hsome
  -- the position lies in the name or at the space after it, or else in the word before it
  rcases List.append_eq_append_iff.mp h with ⟨piece, rfl, hname⟩ | ⟨piece, hclass, hback⟩
  · rw [atWordStart_class_append] at hword
    exact ⟨piece, rfl, hword, name_eq_of_realisation howner hname hread⟩
  · rcases List.cons_eq_append_iff.mp hback with ⟨rfl, hname⟩ | ⟨more, rfl, -⟩
    · refine ⟨[], by simpa using hclass.symm, rfl, ?_⟩
      exact name_eq_of_realisation howner hname hread
    · obtain rfl : c = 'i' := (List.cons.inj htext).1
      have hmem : 'i' ∈ ['c', 'l', 'a', 's', 's', ' '] := by rw [hclass]; simp
      exact absurd hmem (by decide)

/-- The first clause of the header is the one that was written, unless the name of the class ends in
the keyword. -/
theorem firstOccurrence_realisingHead {owner : List Char}
    (howner : ∀ c ∈ owner, isNameChar c = true) (hkeyword : ¬ EndsInKeyword owner)
    (entry : Realised) (more : List Realised) (body : List Char) :
    firstOccurrence realisation (realisingHead owner (entry :: more) body) =
      some (clauseText (entry :: more) ++ [' ']) := by
  obtain ⟨c, rest, hclause, hblank⟩ := exists_clauseText_eq entry more
  have hbrace := brace_not_mem_clauseText (entry :: more)
  rw [hclause] at hbrace
  rw [firstOccurrence, realisingHead, hclause, firstOccurrenceFrom_append]
  · have hword : atWordStart
        ((['c', 'l', 'a', 's', 's', ' '] ++ (owner ++ [' '])).reverse ++ []) = true := by
      simp [atWordStart, isWordChar]
    exact firstOccurrenceFrom_eq_some (by simp) (realisation_keyword hword hblank hbrace body)
  · intro front d back hsplit
    rw [List.append_nil]
    by_contra hread
    obtain ⟨piece, -, hstart, hname⟩ := exists_of_realisation howner hsplit hread
    exact hkeyword ⟨piece, hstart, hname⟩

/-- If the name of the class ends in the keyword, the clause is read from there, and the keyword of
the header is part of it. -/
theorem firstOccurrence_realisingHead_of_endsInKeyword {owner : List Char}
    (howner : ∀ c ∈ owner, isNameChar c = true) (hkeyword : EndsInKeyword owner)
    (entry : Realised) (more : List Realised) (body : List Char) :
    firstOccurrence realisation (realisingHead owner (entry :: more) body) =
      some ("implements".toList ++ ' ' :: clauseText (entry :: more) ++ [' ']) := by
  obtain ⟨name, hstart, rfl⟩ := hkeyword
  have hhead : realisingHead (name ++ "implements".toList) (entry :: more) body =
      (['c', 'l', 'a', 's', 's', ' '] ++ name) ++ ("implements".toList ++ ' ' ::
        ("implements".toList ++ ' ' :: clauseText (entry :: more) ++ ' ' :: '{' :: body)) := by
    simp only [realisingHead, List.append_assoc, List.cons_append, List.nil_append]
  have hbrace : '{' ∉ "implements".toList ++ ' ' :: clauseText (entry :: more) := by
    rw [List.mem_append, List.mem_cons, not_or, not_or]
    exact ⟨by decide, by decide, brace_not_mem_clauseText (entry :: more)⟩
  rw [hhead, firstOccurrence, firstOccurrenceFrom_append]
  · rw [List.append_nil]
    exact firstOccurrenceFrom_eq_some (by simp)
      (realisation_keyword ((atWordStart_class_append name).trans hstart) rfl hbrace body)
  · intro front c back hsplit
    rw [List.append_nil]
    by_contra hread
    have hrest (rest : List Char) : back ++ ("implements".toList ++ ' ' :: rest) =
        (back ++ ("implements".toList ++ [' '])) ++ rest := by
      simp only [List.append_assoc, List.cons_append, List.nil_append]
    have hname : ['c', 'l', 'a', 's', 's', ' '] ++ ((name ++ "implements".toList) ++ [' ']) =
        front ++ c :: (back ++ ("implements".toList ++ [' '])) := by
      rw [List.append_assoc name, ← List.append_assoc, hsplit, List.append_assoc, List.cons_append]
    rw [hrest] at hread
    -- the only place where a clause could be read is the end of what is passed over
    obtain ⟨piece, rfl, -, hpiece⟩ := exists_of_realisation howner hname hread
    obtain rfl := List.append_cancel_right hpiece
    exact absurd (List.self_eq_append_right.mp hsplit) (List.cons_ne_nil c back)

/-- The keyword does not start with a capital letter, so no type name stands there. -/
theorem not_standsFirst_keyword {name text : List Char} :
    ¬ StandsFirst name ("implements".toList ++ text) := by
  rintro ⟨⟨first, letters, rfl, hfirst, -⟩, gap, space, rest, hgap, -, htext, -⟩
  cases gap with
  | nil =>
    obtain rfl : 'i' = first := (List.cons.inj htext).1
    exact absurd hfirst (by decide)
  | cons blank gap =>
    obtain rfl : 'i' = blank := (List.cons.inj htext).1
    exact absurd (hgap 'i' List.mem_cons_self) (by decide)

/-- A clause that starts with the keyword lists what it would list without, apart from the name of
its first entry. -/
theorem listed_keyword_append {name : List Char} (first : Realised) (more : List Realised) :
    Listed name ("implements".toList ++ ' ' :: clauseText (first :: more)) ↔
      StandsAfterComma name first.arguments ∨ ∃ entry ∈ more, Listed name entry.text := by
  have hcomma : ',' ∉ "implements".toList ++ ' ' :: first.name := by
    rw [List.mem_append, List.mem_cons, not_or, not_or]
    exact ⟨by decide, by decide, first.not_mem_name (by decide)⟩
  have hfirst : Listed name ("implements".toList ++ ' ' :: first.text) ↔
      StandsAfterComma name first.arguments := by
    rw [listed_iff, or_iff_right not_standsFirst_keyword, Realised.text, ← List.cons_append,
      ← List.append_assoc, standsAfterComma_append_left hcomma]
  cases more with
  | nil => simpa [clauseText] using hfirst
  | cons next more =>
    rw [clauseText_cons_cons, ← List.cons_append, ← List.append_assoc, listed_append, hfirst,
      listed_gap_append isGap_space, listed_clauseText]

/-- The names of entries as a set. -/
theorem mem_entryNames {name : String} {entries : List Realised} :
    name ∈ NameSet.ofList (entries.map fun entry => String.ofList entry.name) ↔
      ∃ entry ∈ entries, name.toList = entry.name := by
  rw [NameSet.mem_ofList, List.mem_map]
  refine exists_congr fun entry => and_congr_right fun _ => ?_
  rw [← String.toList_inj, String.toList_ofList, eq_comm]

section Head

variable {owner : List Char} {first : Realised} {more : List Realised} {body : List Char}

/-- The header lists the names of its entries and some of their type arguments, unless the name of
the class ends in the keyword. -/
theorem mem_interfaces_realisingHead (howner : ∀ c ∈ owner, isNameChar c = true)
    (hkeyword : ¬ EndsInKeyword owner) {name : String} :
    name ∈ interfaces (realisingHead owner (first :: more) body) ↔
      ∃ entry ∈ first :: more, name.toList = entry.name ∨
        StandsAfterComma name.toList entry.arguments := by
  rw [mem_interfaces_iff, firstOccurrence_realisingHead howner hkeyword]
  simp only [Option.some.injEq, exists_eq_left', listed_append_gap isGap_space,
    listed_clauseText, Realised.listed_text]

/-- If the name of the class ends in the keyword, the header does not list the name of its first
entry. -/
theorem mem_interfaces_realisingHead_of_endsInKeyword
    (howner : ∀ c ∈ owner, isNameChar c = true) (hkeyword : EndsInKeyword owner) {name : String} :
    name ∈ interfaces (realisingHead owner (first :: more) body) ↔
      StandsAfterComma name.toList first.arguments ∨
        ∃ entry ∈ more, name.toList = entry.name ∨
          StandsAfterComma name.toList entry.arguments := by
  rw [mem_interfaces_iff, firstOccurrence_realisingHead_of_endsInKeyword howner hkeyword]
  simp only [Option.some.injEq, exists_eq_left', listed_append_gap isGap_space,
    listed_keyword_append, Realised.listed_text]

/-- The names of the entries are all that is listed exactly if no type argument adds another. -/
theorem interfaces_realisingHead_eq_iff (howner : ∀ c ∈ owner, isNameChar c = true)
    (hkeyword : ¬ EndsInKeyword owner) :
    interfaces (realisingHead owner (first :: more) body) =
        NameSet.ofList ((first :: more).map fun entry => String.ofList entry.name) ↔
      ∀ entry ∈ first :: more, ∀ name, StandsAfterComma name entry.arguments →
        ∃ other ∈ first :: more, name = other.name := by
  constructor
  · intro heq entry hentry name hstands
    have hlisted : String.ofList name ∈ interfaces (realisingHead owner (first :: more) body) :=
      (mem_interfaces_realisingHead howner hkeyword).mpr
        ⟨entry, hentry, .inr (by rwa [String.toList_ofList])⟩
    rw [heq, mem_entryNames, String.toList_ofList] at hlisted
    exact hlisted
  · intro hcovered
    refine NameSet.ext_mem fun name => ?_
    rw [mem_interfaces_realisingHead howner hkeyword, mem_entryNames]
    constructor
    · rintro ⟨entry, hentry, hname | hstands⟩
      · exact ⟨entry, hentry, hname⟩
      · exact hcovered entry hentry _ hstands
    · rintro ⟨entry, hentry, hname⟩
      exact ⟨entry, hentry, .inl hname⟩

end Head

/-- **What the header of a class lists.** The interfaces are the names of the entries and, besides,
the type arguments that stand after a comma and before a comma or type arguments of their own. They
are the names of the entries alone exactly if every such argument has the name of an entry too. If
the last word of the class name is the keyword, the clause is read from there: then the name of the
first entry is missing, and all else is listed as before. -/
theorem interfaces_realisingHead (owner : List Char) (howner : ∀ c ∈ owner, isNameChar c = true)
    (first : Realised) (more : List Realised) (body : List Char) :
    (¬ EndsInKeyword owner →
      (∀ name, name ∈ interfaces (realisingHead owner (first :: more) body) ↔
        ∃ entry ∈ first :: more, name.toList = entry.name ∨
          StandsAfterComma name.toList entry.arguments) ∧
      (interfaces (realisingHead owner (first :: more) body) =
          NameSet.ofList ((first :: more).map fun entry => String.ofList entry.name) ↔
        ∀ entry ∈ first :: more, ∀ name, StandsAfterComma name entry.arguments →
          ∃ other ∈ first :: more, name = other.name)) ∧
    (EndsInKeyword owner →
      ∀ name, name ∈ interfaces (realisingHead owner (first :: more) body) ↔
        StandsAfterComma name.toList first.arguments ∨
          ∃ entry ∈ more, name.toList = entry.name ∨
            StandsAfterComma name.toList entry.arguments) := by
  refine ⟨fun hkeyword => ⟨fun name => ?_, ?_⟩, fun hkeyword name => ?_⟩
  · exact mem_interfaces_realisingHead howner hkeyword
  · exact interfaces_realisingHead_eq_iff howner hkeyword
  · exact mem_interfaces_realisingHead_of_endsInKeyword howner hkeyword

/-- An entry with three type arguments, `Tri<A, B, C>`. -/
def triple : Realised where
  name := "Tri".toList
  arguments := "<A, B, C>".toList
  name_isName := isTypeName_iff.mp (by decide)
  arguments_open _ hc := (Option.some.inj hc).symm
  brace_not_mem := by decide

/-- An entry without type arguments. -/
def closeable : Realised where
  name := "Closeable".toList
  arguments := []
  name_isName := isTypeName_iff.mp (by decide +kernel)
  arguments_open := by simp
  brace_not_mem := List.not_mem_nil

/-- The second of three type arguments is listed. The name of the entry itself is listed for one
class with a dollar sign in its name and not for the other, whose last word is the keyword. -/
theorem interfaces_realisingHead_triple :
    (∀ c ∈ "Outer$Store".toList, isNameChar c = true) ∧ ¬ EndsInKeyword "Outer$Store".toList ∧
      (∀ c ∈ "X$implements".toList, isNameChar c = true) ∧ EndsInKeyword "X$implements".toList ∧
      StandsAfterComma "B".toList triple.arguments ∧
      "B" ∈ interfaces (realisingHead "Outer$Store".toList [triple, closeable] []) ∧
      "Tri" ∈ interfaces (realisingHead "Outer$Store".toList [triple, closeable] []) ∧
      "B" ∈ interfaces (realisingHead "X$implements".toList [triple, closeable] []) ∧
      "Tri" ∉ interfaces (realisingHead "X$implements".toList [triple, closeable] []) := by
  have howner : ∀ c ∈ "Outer$Store".toList, isNameChar c = true :=
    List.all_eq_true.mp (by decide +kernel)
  have hkeyword : ¬ EndsInKeyword "Outer$Store".toList := by
    rintro ⟨front, -, heq⟩
    have hsuffix : "implements".toList <:+ "Outer$Store".toList := ⟨front, heq.symm⟩
    exact absurd hsuffix (by decide)
  have hending : ∀ c ∈ "X$implements".toList, isNameChar c = true :=
    List.all_eq_true.mp (by decide +kernel)
  have hends : EndsInKeyword "X$implements".toList := ⟨"X$".toList, by decide, by decide⟩
  have hstands : StandsAfterComma "B".toList triple.arguments :=
    ⟨"<A".toList, " B, C>".toList, by decide, standsFirst_iff.mpr (by decide +kernel)⟩
  have hlisted := ((interfaces_realisingHead _ howner triple [closeable] []).1 hkeyword).1
  have hmissing := (interfaces_realisingHead _ hending triple [closeable] []).2 hends
  refine ⟨howner, hkeyword, hending, hends, hstands, ?_, ?_, ?_, ?_⟩
  · exact (hlisted "B").mpr ⟨triple, List.mem_cons_self, .inr hstands⟩
  · exact (hlisted "Tri").mpr ⟨triple, List.mem_cons_self, .inl rfl⟩
  · exact (hmissing "B").mpr (.inl hstands)
  · decide +kernel

/-- In a clause with one entry, whose type arguments are balanced, an argument is taken for an
interface. -/
theorem interfaces_take_type_argument :
    realisingHead "N".toList [triple] [] = "class N implements Tri<A, B, C> \x7b".toList ∧
      Balanced '<' '>' triple.arguments ∧
      interfaces (realisingHead "N".toList [triple] []) = NameSet.ofList ["B", "Tri"] ∧
      NameSet.ofList ["B", "Tri"] ≠ NameSet.ofList ["Tri"] := by
  refine ⟨by decide, by decide, by decide +kernel, by decide⟩

end ClassAtlas.Source
