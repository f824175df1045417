import ClassAtlas.Proofs.Occurrences
import Mathlib.Data.List.Infix

/-!
# Overlapping occurrences

A pattern may occur at positions that a search never comes to, since the search goes on at the end
of each occurrence that it finds. This file says which these are. An occurrence is missed exactly if
one that is found begins before its first character and ends after it.
-/

namespace ClassAtlas.Text

/-- Whatever the pattern reads takes up at least one character of the text. -/
def Recogniser.Advances {α : Type} (pattern : Recogniser α) : Prop :=
  ∀ before text found after, pattern before text = some (found, after) →
    ∃ piece, piece ≠ [] ∧ text = piece ++ after

/-- The pattern occurs in the text from one position to another, whether a search comes to it or
not. -/
structure Recogniser.OccursAt {α : Type} (pattern : Recogniser α) (text : List Char)
    (start stop : Nat) (found : α) :
    Prop where
  start_lt : start < stop
  stop_le : stop ≤ text.length
  reads : pattern (text.take start).reverse (text.drop start) = some (found, text.drop stop)

/-- The positions that a search comes to. From the start of an occurrence it goes on at the end of
it, and from every other position one character further. -/
inductive Recogniser.Visits {α : Type} (pattern : Recogniser α) (text : List Char) : Nat → Prop
  | start : Visits pattern text 0
  | pass {position : Nat} : Visits pattern text position → position < text.length →
      (∀ stop found, ¬ pattern.OccursAt text position stop found) →
      Visits pattern text (position + 1)
  | take {start stop : Nat} {found : α} :
    Visits pattern text start → pattern.OccursAt text start stop found →
      Visits pattern text stop

/-- An occurrence that is found begins before the position and ends after it. -/
def Recogniser.Overtaken {α : Type} (pattern : Recogniser α) (text : List Char)
    (position : Nat) : Prop :=
  ∃ start stop found, pattern.Visits text start ∧ pattern.OccursAt text start stop found ∧
    start < position ∧ position < stop

section Pieces

variable {text piece rest : List Char} {i k : Nat} {c : Char}

/-- After a piece at a position stands what follows the piece. -/
theorem drop_add_length (h : text.drop i = piece ++ rest) :
    text.drop (i + piece.length) = rest := by
  rw [← List.drop_drop, h, List.drop_left]

/-- The character at a position is the first one from there on. -/
theorem getElem?_of_drop_eq_cons (h : text.drop i = c :: rest) : text[i]? = some c := by
  have hindex : (text.drop i)[0]? = text[i + 0]? := List.getElem?_drop
  rw [h] at hindex
  exact hindex.symm

/-- A character between the ends of a piece is one of the piece. -/
theorem mem_of_drop_eq (h : text.drop i = piece ++ rest) (hle : i ≤ k) (hlt : k < i + piece.length)
    (hc : text[k]? = some c) : c ∈ piece := by
  have hindex : (text.drop i)[k - i]? = text[i + (k - i)]? := List.getElem?_drop
  rw [h, List.getElem?_append_left (by omega), Nat.add_sub_cancel' hle, hc] at hindex
  exact List.mem_of_getElem? hindex

/-- Between the ends of a piece there is a character of it at every position. -/
theorem exists_mem_of_drop_eq (h : text.drop i = piece ++ rest) (hle : i ≤ k)
    (hlt : k < i + piece.length) :
    ∃ c ∈ piece, text[k]? = some c := by
  have hlength : text.length - i = piece.length + rest.length := by
    rw [← List.length_drop, h, List.length_append]
  have hc : text[k]? = some text[k] := List.getElem?_eq_getElem (by omega)
  exact ⟨text[k], mem_of_drop_eq h hle hlt hc, hc⟩

/-- The text before the next position has one more character, which comes first in reverse. -/
theorem reverse_take_succ (h : k < text.length) :
    (text.take (k + 1)).reverse = text[k] :: (text.take k).reverse := by
  rw [List.take_succ_eq_append_getElem h, List.reverse_append, List.reverse_singleton,
    List.singleton_append]

/-- A word may start at a position if the character before it, if there is one, belongs to no
word. -/
theorem atWordStart_reverse_take_iff (h : k ≤ text.length) :
    atWordStart (text.take k).reverse = true ↔
      ∀ c, 0 < k → text[k - 1]? = some c → isWordChar c = false := by
  cases k with
  | zero => simp [atWordStart]
  | succ k =>
    rw [reverse_take_succ h, Nat.add_sub_cancel, List.getElem?_eq_getElem h]
    simp [atWordStart]

end Pieces

section Positions

variable {α : Type} {pattern : Recogniser α} {text : List Char}
    {start stop position : Nat} {found : α}

/-- An occurrence starts inside the text. -/
theorem Recogniser.OccursAt.start_lt_length (h : pattern.OccursAt text start stop found) :
    start < text.length :=
  Nat.lt_of_lt_of_le h.start_lt h.stop_le

/-- At one position there is at most one occurrence. -/
theorem Recogniser.OccursAt.unique {stop' : Nat} {found' : α}
    (h : pattern.OccursAt text start stop found) (h' : pattern.OccursAt text start stop' found') :
    stop = stop' ∧ found = found' := by
  have heq : (found, text.drop stop) = (found', text.drop stop') :=
    Option.some.inj (h.reads.symm.trans h'.reads)
  obtain ⟨hfound, hdrop⟩ := Prod.mk.inj heq
  have hlength : text.length - stop = text.length - stop' := by
    rw [← List.length_drop, ← List.length_drop, hdrop]
  have hle := h.stop_le
  have hle' := h'.stop_le
  exact ⟨by omega, hfound⟩

/-- What a pattern reads at a position is an occurrence. -/
theorem Recogniser.Advances.exists_occursAt (hadvances : pattern.Advances) {after : List Char}
    (h : pattern (text.take start).reverse (text.drop start) = some (found, after)) :
    ∃ stop, pattern.OccursAt text start stop found ∧ after = text.drop stop := by
  obtain ⟨piece, hne, hsplit⟩ := hadvances _ _ _ _ h
  have hafter : after = text.drop (start + piece.length) := (drop_add_length hsplit).symm
  have hpos : 0 < piece.length := List.length_pos_iff.mpr hne
  have hlength : text.length - start = piece.length + after.length := by
    rw [← List.length_drop, hsplit, List.length_append]
  refine ⟨start + piece.length, ⟨by omega, by omega, ?_⟩, hafter⟩
  rw [h, hafter]

/-- A pattern that takes up something reads nothing where it does not occur. -/
theorem Recogniser.Advances.eq_none_of_forall (hadvances : pattern.Advances)
    (h : ∀ stop found, ¬ pattern.OccursAt text start stop found) :
    pattern (text.take start).reverse (text.drop start) = none := by
  rw [Option.eq_none_iff_forall_ne_some]
  rintro ⟨found, after⟩ hread
  obtain ⟨stop, hoccurs, -⟩ := hadvances.exists_occursAt hread
  exact h stop found hoccurs

/-- Where an occurrence ends is told by its length. -/
theorem Recogniser.OccursAt.stop_eq (h : pattern.OccursAt text start stop found) {piece : List Char}
    (hsplit : text.drop start = piece ++ text.drop stop) : stop = start + piece.length := by
  have hlength : text.length - start = piece.length + (text.length - stop) := by
    rw [← List.length_drop, hsplit, List.length_append, List.length_drop]
  have hlt := h.start_lt
  have hle := h.stop_le
  omega

/-! ## Visited positions -/

/-- The search does not go beyond the end of the text. -/
theorem Recogniser.Visits.le_length (h : pattern.Visits text position) :
    position ≤ text.length := by
  cases h with
  | start => exact Nat.zero_le _
  | pass _ hlt _ => exact hlt
  | take _ hoccurs => exact hoccurs.stop_le

/-- A search does not come to a position inside an occurrence that it finds. The induction is on
both positions, since of two occurrences that are found either one can come first. -/
theorem Recogniser.Visits.stop_le (hposition : pattern.Visits text position)
    (hstart : pattern.Visits text start) (hoccurs : pattern.OccursAt text start stop found)
    (hlt : start < position) : stop ≤ position := by
  induction hsum :
    position + start using Nat.strong_induction_on generalizing position start stop found with
  | _ sum ih =>
    cases hposition with
    | start => omega
    | @pass earlier hvisits _ hnone =>
      by_cases heq : start = earlier
      · subst heq
        exact absurd hoccurs (hnone stop found)
      · have hle := ih (earlier + start) (by omega) hvisits hstart hoccurs (by omega) rfl
        omega
    | @take other _ _ hvisits hother =>
      have hother_lt := hother.start_lt
      rcases Nat.lt_trichotomy start other with hbefore | rfl | hafter
      · have hle := ih (other + start) (by omega) hvisits hstart hoccurs hbefore rfl
        omega
      · exact Nat.le_of_eq (hoccurs.unique hother).1
      · have hle := ih (start + other) (by omega) hstart hvisits hother hafter rfl
        omega

/-- A search comes to every position that is not inside an occurrence which it finds. -/
theorem Recogniser.visits_or_overtaken (pattern : Recogniser α) (h : position ≤ text.length) :
    pattern.Visits text position ∨ pattern.Overtaken text position := by
  induction position with
  | zero => exact .inl .start
  | succ position ih =>
    rcases ih (by omega) with hvisits | ⟨start, stop, found, hvisits, hoccurs, hlt, hgt⟩
    · by_cases hnone : ∀ stop found, ¬ pattern.OccursAt text position stop found
      · exact .inl (.pass hvisits h hnone)
      · push Not at hnone
        obtain ⟨stop, found, hoccurs⟩ := hnone
        have hlt := hoccurs.start_lt
        by_cases hstop : stop = position + 1
        · subst hstop
          exact .inl (.take hvisits hoccurs)
        · exact .inr ⟨position, stop, found, hvisits, hoccurs, by omega, by omega⟩
    · by_cases hstop : stop = position + 1
      · subst hstop
        exact .inl (.take hvisits hoccurs)
      · exact .inr ⟨start, stop, found, hvisits, hoccurs, by omega, by omega⟩

/-- The search comes to a position exactly if no occurrence that it finds reaches beyond it. -/
theorem Recogniser.visits_iff (pattern : Recogniser α) (h : position ≤ text.length) :
    pattern.Visits text position ↔ ¬ pattern.Overtaken text position := by
  constructor
  · rintro hvisits ⟨start, stop, found, hstart, hoccurs, hlt, hgt⟩
    have hle := hvisits.stop_le hstart hoccurs hlt
    omega
  · exact (pattern.visits_or_overtaken h).resolve_right

/-! ## The search -/

/-- The search that goes on at a position of the text. -/
def searchFrom (pattern : Recogniser α) (text : List Char) (position : Nat) : List α :=
  occurrencesFrom pattern (text.take position).reverse 0 (text.drop position)

/-- At the end of the text nothing is found any more. -/
theorem searchFrom_length (pattern : Recogniser α) (text : List Char) :
    searchFrom pattern text text.length = [] := by
  rw [searchFrom, List.drop_length]
  rfl

/-- Where the pattern reads nothing, the search goes on with the next position. -/
theorem searchFrom_of_none (h : position < text.length)
    (hnone : pattern (text.take position).reverse (text.drop position) = none) :
    searchFrom pattern text position = searchFrom pattern text (position + 1) := by
  rw [List.drop_eq_getElem_cons h] at hnone
  rw [searchFrom, List.drop_eq_getElem_cons h, occurrencesFrom, hnone, searchFrom,
    reverse_take_succ h]

/-- Where the pattern occurs, the search goes on where the occurrence ends. -/
theorem searchFrom_of_occursAt (h : pattern.OccursAt text start stop found) :
    searchFrom pattern text start = found :: searchFrom pattern text stop := by
  have hstart := h.start_lt_length
  have hlt := h.start_lt
  have hle := h.stop_le
  let piece := (text.drop (start + 1)).take (stop - (start + 1))
  have hlength : piece.length = stop - (start + 1) := by
    rw [List.length_take, List.length_drop]
    omega
  have hrest : text.drop (start + 1) = piece ++ text.drop stop := by
    have hdrop : (text.drop (start + 1)).drop (stop - (start + 1)) = text.drop stop := by
      rw [List.drop_drop]
      congr 1
      omega
    rw [← hdrop, List.take_append_drop]
  have hbefore : piece.reverse ++ (text.take (start + 1)).reverse = (text.take stop).reverse := by
    have htake : text.take stop = text.take (start + 1) ++ piece := by
      rw [← List.take_add]
      congr 1
      omega
    rw [htake, List.reverse_append]
  have hreads := h.reads
  rw [List.drop_eq_getElem_cons hstart] at hreads
  have hskip : (text.drop (start + 1)).length - (text.drop stop).length = piece.length := by
    rw [hrest, List.length_append]
    omega
  rw [searchFrom, List.drop_eq_getElem_cons hstart, occurrencesFrom, hreads]
  simp only [hskip, ← reverse_take_succ hstart]
  rw [hrest, occurrencesFrom_length, hbefore]
  rfl

/-- What is found later is found as well. -/
theorem Recogniser.Visits.mem_occurrences (hadvances : pattern.Advances)
    (hvisits : pattern.Visits text position) (hmem : found ∈ searchFrom pattern text position) :
    found ∈ occurrences pattern text := by
  induction hvisits with
  | start => exact hmem
  | pass _ hlt hnone ih =>
    rw [← searchFrom_of_none hlt (hadvances.eq_none_of_forall hnone)] at hmem
    exact ih hmem
  | take _ hoccurs ih =>
    refine ih ?_
    rw [searchFrom_of_occursAt hoccurs]
    exact List.mem_cons_of_mem _ hmem

/-- Induction along a search, from the end of the text to the front: over a position at which the
pattern does not occur, and over an occurrence. -/
theorem Recogniser.search_induction (pattern : Recogniser α) (text : List Char)
    {motive : ∀ position, position ≤ text.length → Prop} (done : motive text.length (Nat.le_refl _))
    (pass : ∀ position (hlt : position < text.length),
      (∀ stop found, ¬ pattern.OccursAt text position stop found) → motive (position + 1) hlt →
        motive position (Nat.le_of_lt hlt))
    (take : ∀ start stop found (hoccurs : pattern.OccursAt text start stop found),
      motive stop hoccurs.stop_le → motive start (Nat.le_of_lt hoccurs.start_lt_length))
    (position : Nat) (hle : position ≤ text.length) : motive position hle := by
  induction hleft : text.length - position using Nat.strong_induction_on generalizing position with
  | _ left ih =>
    rcases Nat.eq_or_lt_of_le hle with rfl | hlt
    · exact done
    · by_cases hnone : ∀ stop found, ¬ pattern.OccursAt text position stop found
      · exact pass position hlt hnone (ih _ (by omega) (position + 1) hlt rfl)
      · push Not at hnone
        obtain ⟨stop, found, hoccurs⟩ := hnone
        have hafter := hoccurs.start_lt
        exact take position stop found hoccurs (ih _ (by omega) stop hoccurs.stop_le rfl)

/-- What a search finds from a visited position on occurs at a visited position. -/
theorem Recogniser.Visits.exists_of_mem (hadvances : pattern.Advances)
    (hvisits : pattern.Visits text position) (hmem : found ∈ searchFrom pattern text position) :
    ∃ start stop, pattern.Visits text start ∧ pattern.OccursAt text start stop found := by
  have hle := hvisits.le_length
  induction position, hle using pattern.search_induction text with
  | done =>
    rw [searchFrom_length] at hmem
    cases hmem
  | pass position hlt hnone ih =>
    rw [searchFrom_of_none hlt (hadvances.eq_none_of_forall hnone)] at hmem
    exact ih (.pass hvisits hlt hnone) hmem
  | take start stop first hoccurs ih =>
    rw [searchFrom_of_occursAt hoccurs] at hmem
    rcases List.mem_cons.mp hmem with rfl | hlater
    · exact ⟨start, stop, hvisits, hoccurs⟩
    · exact ih (.take hvisits hoccurs) hlater

/-- **A search finds the occurrences that are not overtaken.** -/
theorem Recogniser.Advances.mem_occurrences_iff (hadvances : pattern.Advances) :
    found ∈ occurrences pattern text ↔
      ∃ start stop, pattern.OccursAt text start stop found ∧ ¬ pattern.Overtaken text start := by
  constructor
  · intro hmem
    obtain ⟨start, stop, hvisits, hoccurs⟩ := Recogniser.Visits.start.exists_of_mem hadvances hmem
    exact ⟨start, stop, hoccurs, (pattern.visits_iff hvisits.le_length).mp hvisits⟩
  · rintro ⟨start, stop, hoccurs, hfree⟩
    have hvisits : pattern.Visits text start :=
      (pattern.visits_iff hoccurs.start_lt_length.le).mpr hfree
    refine hvisits.mem_occurrences hadvances ?_
    rw [searchFrom_of_occursAt hoccurs]
    exact List.mem_cons_self

end Positions

end ClassAtlas.Text
