import ClassAtlas.Proofs.Braces
import Mathlib.Data.Set.Card

/-!
# Branch openers are counted one by one

The number of branches is taken from a search that goes on behind each opener it finds. A keyword
starts only where no word goes on, and inside an opener this is so at its first letter alone. So no
opener starts inside another one, and the search finds as many as there are.
-/

namespace ClassAtlas

/-! ## Patterns whose occurrences do not overlap -/

namespace Text

/-- No occurrence of the pattern starts inside another one. -/
def Recogniser.Separate {α : Type} (pattern : Recogniser α) : Prop :=
  ∀ text start stop found start' stop' found', pattern.OccursAt text start stop found →
    pattern.OccursAt text start' stop' found' → start < start' → stop ≤ start'

/-- The positions from the given one on at which the pattern occurs. -/
def Recogniser.startsFrom {α : Type} (pattern : Recogniser α) (text : List Char)
    (position : Nat) : Set Nat :=
  {start | position ≤ start ∧ ∃ stop found, pattern.OccursAt text start stop found}

section Counting

variable {α : Type} {pattern : Recogniser α} {text : List Char}
    {start stop position : Nat} {found : α}

/-- At the end of the text nothing occurs any more. -/
theorem Recogniser.startsFrom_length (pattern : Recogniser α) (text : List Char) :
    pattern.startsFrom text text.length = ∅ := by
  rw [Set.eq_empty_iff_forall_notMem]
  rintro start ⟨hle, stop, found, hoccurs⟩
  have hlt := hoccurs.start_lt_length
  omega

/-- A position without an occurrence can be passed over. -/
theorem Recogniser.startsFrom_of_forall
    (hnone : ∀ stop found, ¬ pattern.OccursAt text position stop found) :
    pattern.startsFrom text position = pattern.startsFrom text (position + 1) := by
  ext start
  constructor
  · rintro ⟨hle, stop, found, hoccurs⟩
    have hne : position ≠ start := by
      rintro rfl
      exact hnone stop found hoccurs
    exact ⟨by omega, stop, found, hoccurs⟩
  · rintro ⟨hle, hoccurs⟩
    exact ⟨by omega, hoccurs⟩

/-- After an occurrence the next one starts where it ends or later. -/
theorem Recogniser.Separate.startsFrom_eq_insert (hseparate : pattern.Separate)
    (h : pattern.OccursAt text start stop found) :
    pattern.startsFrom text start = insert start (pattern.startsFrom text stop) := by
  ext next
  constructor
  · rintro ⟨hle, stop', found', hoccurs⟩
    rcases Nat.eq_or_lt_of_le hle with rfl | hlt
    · exact .inl rfl
    · exact .inr ⟨hseparate _ _ _ _ _ _ _ h hoccurs hlt, stop', found', hoccurs⟩
  · rintro (rfl | ⟨hle, hoccurs⟩)
    · exact ⟨Nat.le_refl _, stop, found, h⟩
    · have hlt := h.start_lt
      exact ⟨by omega, hoccurs⟩

/-- A search finds as many occurrences as there are from its position on. -/
theorem Recogniser.Separate.length_searchFrom (hseparate : pattern.Separate)
    (hadvances : pattern.Advances) (hle : position ≤ text.length) :
    (searchFrom pattern text position).length = (pattern.startsFrom text position).encard := by
  induction position, hle using pattern.search_induction text with
  | done =>
    rw [searchFrom_length, pattern.startsFrom_length, Set.encard_empty]
    rfl
  | pass position hlt hnone ih =>
    rw [searchFrom_of_none hlt (hadvances.eq_none_of_forall hnone),
      Recogniser.startsFrom_of_forall hnone]
    exact ih
  | take start stop found hoccurs ih =>
    have hnew : start ∉ pattern.startsFrom text stop := by
      rintro ⟨hle, -⟩
      have hlt := hoccurs.start_lt
      omega
    rw [searchFrom_of_occursAt hoccurs, hseparate.startsFrom_eq_insert hoccurs,
      Set.encard_insert_of_notMem hnew, List.length_cons, Nat.cast_succ, ih]

/-- **Occurrences that do not overlap are all found.** -/
theorem Recogniser.Separate.length_occurrences (hseparate : pattern.Separate)
    (hadvances : pattern.Advances) (text : List Char) :
    (occurrences pattern text).length =
      {start | ∃ stop found, pattern.OccursAt text start stop found}.encard := by
  have hall : {start | ∃ stop found, pattern.OccursAt text start stop found} =
      pattern.startsFrom text 0 := by
    ext start
    exact (and_iff_right (Nat.zero_le start)).symm
  rw [hall, ← hseparate.length_searchFrom hadvances (Nat.zero_le _)]
  rfl

/-- The search comes to every one of them. -/
theorem Recogniser.Separate.visits (hseparate : pattern.Separate)
    (h : pattern.OccursAt text start stop found) :
    pattern.Visits text start := by
  rw [pattern.visits_iff h.start_lt_length.le]
  rintro ⟨earlier, later, found', -, hoccurs, hlt, hgt⟩
  have hle := hseparate _ _ _ _ _ _ _ hoccurs h hlt
  omega

end Counting

end Text

/-! ## Branch openers -/

namespace Source

open ClassAtlas.Text

/-- A branch opens at the position. The character before it, if there is one, belongs to no word,
and a branching keyword follows with blanks, if any, and an opening parenthesis. -/
structure OpensBranch (text : List Char) (position : Nat) : Prop where
  fresh : ∀ c, 0 < position → text[position - 1]? = some c → isWordChar c = false
  spelled : ∃ keyword ∈ ["if", "switch", "for", "while"], ∃ gap rest, IsGap gap ∧
    text.drop position = keyword.toList ++ (gap ++ '(' :: rest)

/-- The branching keywords, spelled out. -/
theorem branchWords_eq : branchWords = ["if", "switch", "for", "while"].map String.toList := rfl

/-- A branching keyword is a word: it is not empty and has only word characters. -/
theorem mem_branchWords_spec {word : List Char} (h : word ∈ branchWords) :
    word ≠ [] ∧ ∀ c ∈ word, isWordChar c = true := by
  have hall : (branchWords.all fun word => word ≠ [] && word.all isWordChar) = true := by decide
  simpa using List.all_eq_true.mp hall word h

/-- The pattern occurs where a branch opens. -/
theorem exists_occursAt_branchOpener_iff {text : List Char} {position : Nat} :
    (∃ stop found, branchOpener.OccursAt text position stop found) ↔ OpensBranch text position := by
  constructor
  · rintro ⟨stop, found, hoccurs⟩
    obtain ⟨hstart, word, hword, gap, hgap, hsplit⟩ := branchOpener_eq_some_iff.mp hoccurs.reads
    rw [branchWords_eq] at hword
    obtain ⟨keyword, hkeyword, rfl⟩ := List.mem_map.mp hword
    exact ⟨(atWordStart_reverse_take_iff hoccurs.start_lt_length.le).mp hstart,
      keyword, hkeyword, gap, text.drop stop, hgap, hsplit⟩
  · rintro ⟨hfresh, keyword, hkeyword, gap, rest, hgap, hsplit⟩
    have hword : keyword.toList ∈ branchWords := by
      rw [branchWords_eq]
      exact List.mem_map_of_mem hkeyword
    have hle : position ≤ text.length := by
      by_contra hbeyond
      rw [List.drop_eq_nil_of_le (by omega)] at hsplit
      simp at hsplit
    have hreads :
        branchOpener (text.take position).reverse (text.drop position) = some ((), rest) :=
      branchOpener_eq_some_iff.mpr
        ⟨(atWordStart_reverse_take_iff hle).mpr hfresh, keyword.toList, hword, gap, hgap, hsplit⟩
    obtain ⟨stop, hoccurs, -⟩ := advances_branchOpener.exists_occursAt hreads
    exact ⟨stop, (), hoccurs⟩

/-- A branch opener starts a word. -/
theorem exists_wordStart_of_branchOpener {text : List Char} {start stop : Nat} {found : Unit}
    (h : branchOpener.OccursAt text start stop found) : ∃ first, WordStart text start first := by
  obtain ⟨hstart, word, hword, gap, -, hsplit⟩ := branchOpener_eq_some_iff.mp h.reads
  obtain ⟨hne, hchars⟩ := mem_branchWords_spec hword
  obtain ⟨first, more, rfl⟩ := List.exists_cons_of_ne_nil hne
  refine ⟨first, getElem?_of_drop_eq_cons hsplit, ?_, hstart⟩
  rw [isNameChar, hchars first List.mem_cons_self, Bool.true_or]

/-- Inside an opener no word starts after the keyword, since only blanks and the parenthesis
follow. -/
theorem separate_branchOpener : branchOpener.Separate := by
  intro text start stop found start' stop' found' h h' hlt
  obtain ⟨-, word, hword, gap, hgap, hsplit⟩ := branchOpener_eq_some_iff.mp h.reads
  obtain ⟨first, hfirst⟩ := exists_wordStart_of_branchOpener h'
  have hgapAt := drop_add_length hsplit
  have hopenAt := drop_add_length hgapAt
  have hpastWord := hfirst.past_word hsplit (mem_branchWords_spec hword).2 hlt
  have hpastGap := hfirst.past hgapAt hgap.not_isNameChar (Nat.le_of_lt hpastWord)
  have hpastOpen := hfirst.past_char hopenAt (by decide) hpastGap
  have hstop : stop = start + (word ++ (gap ++ ['('])).length := h.stop_eq (by simpa using hsplit)
  simp only [List.length_append, List.length_singleton] at hstop
  omega

/-- **Every branch opener is found, and counted once.** The number of branches of a text is the
number of all positions at which a branch opens, and the search comes to each of them. -/
theorem branch_openers_counted (text : List Char) :
    {position | OpensBranch text position}.encard = branchCount text ∧
      ∀ position, OpensBranch text position → branchOpener.Visits text position := by
  constructor
  · rw [branchCount, separate_branchOpener.length_occurrences advances_branchOpener]
    simp only [exists_occursAt_branchOpener_iff]
  · intro position hopens
    obtain ⟨stop, found, hoccurs⟩ := exists_occursAt_branchOpener_iff.mpr hopens
    exact separate_branchOpener.visits hoccurs

/-- A keyword that ends a word opens nothing, and an opener right behind another one is found. -/
theorem branch_openers_counted_adjacent :
    OpensBranch "notif (a) if(if (b))".toList 13 ∧
    {position | OpensBranch "notif (a) if(if (b))".toList position}.encard = 2 ∧
    branchOpener.Visits "notif (a) if(if (b))".toList 13 := by
  have hopens : OpensBranch "notif (a) if(if (b))".toList 13 := by
    refine ⟨fun c _ hc => ?_, "if", by simp, [' '],
      "b))".toList, by simp [IsGap, isBlank], by decide⟩
    have hbefore : "notif (a) if(if (b))".toList[12]? = some '(' := by decide
    obtain rfl : '(' = c := Option.some.inj (hbefore.symm.trans hc)
    decide
  have hcount : branchCount "notif (a) if(if (b))".toList = 2 := by decide +kernel
  obtain ⟨hall, hvisits⟩ := branch_openers_counted "notif (a) if(if (b))".toList
  rw [hcount] at hall
  exact ⟨hopens, hall, hvisits 13 hopens⟩

end Source

end ClassAtlas
