import ClassAtlas.Text.Occurrence
import ClassAtlas.Text.Word

/-!
# The search for occurrences

Occurrences are found from left to right and do not overlap, so in general what is found in one part
of a text depends on the parts before it. Most patterns look back only to see whether a word may
start, and none of their occurrences reaches beyond certain marks. Such a mark cuts the search in
two: the occurrences are those up to the mark and those after it. The other statements pass over
what holds no occurrence, a character or a word at a time.
-/

namespace ClassAtlas.Text

/-- Of the text before a position the pattern sees only whether a word may start there. -/
def Recogniser.Local {α : Type} (pattern : Recogniser α) : Prop :=
  ∀ before before' text, atWordStart before = atWordStart before' →
    pattern before text = pattern before' text

/-- The pattern occurs only where a word may start. -/
def Recogniser.StartsWords {α : Type} (pattern : Recogniser α) : Prop :=
  ∀ before text, atWordStart before = false → pattern before text = none

/-- An occurrence may end with the mark but does not reach beyond it, and what follows the mark
makes no difference to it. -/
def Recogniser.EndsAt {α : Type} (pattern : Recogniser α) (mark : Char) : Prop :=
  ∀ before front back, pattern before (front ++ mark :: back) =
    (pattern before (front ++ [mark])).map fun (found, after) => (found, after ++ back)

section Search

variable {α : Type} {pattern : Recogniser α}

/-- After a character that is no part of a word a word may start. -/
theorem atWordStart_cons_eq_true {c : Char} {before : List Char} (hc : isWordChar c = false) :
    atWordStart (c :: before) = true := by
  simp [atWordStart, hc]

/-- Characters that belong to the last occurrence are passed over. -/
theorem occurrencesFrom_length (pattern : Recogniser α) (before piece rest : List Char) :
    occurrencesFrom pattern before piece.length (piece ++ rest) =
      occurrencesFrom pattern (piece.reverse ++ before) 0 rest := by
  induction piece generalizing before with
  | nil => rfl
  | cons c piece ih =>
    rw [List.length_cons, List.cons_append, occurrencesFrom, ih, List.reverse_cons,
      List.append_assoc, List.singleton_append]

/-- Of what stands before it a search sees only whether a word may start. -/
theorem Recogniser.Local.occurrencesFrom_congr (hlocal : pattern.Local) {before before' : List Char}
    (skip : Nat) (text : List Char) (h : atWordStart before = atWordStart before') :
    occurrencesFrom pattern before skip text = occurrencesFrom pattern before' skip text := by
  induction text generalizing before before' skip with
  | nil => rfl
  | cons c rest ih =>
    have hnext (next : Nat) :
        occurrencesFrom pattern (c :: before) next rest =
          occurrencesFrom pattern (c :: before') next rest :=
      ih next rfl
    cases skip with
    | zero =>
      rw [occurrencesFrom, occurrencesFrom, hlocal before before' _ h]
      split
      · rw [hnext]
      · exact hnext 0
    | succ skip => exact hnext skip

/-- After a character that belongs to no word the search starts anew. -/
theorem Recogniser.Local.occurrencesFrom_eq (hlocal : pattern.Local) {c : Char}
    (hc : isWordChar c = false) (before text : List Char) :
    occurrencesFrom pattern (c :: before) 0 text = occurrences pattern text :=
  hlocal.occurrencesFrom_congr 0 text (atWordStart_cons_eq_true hc)

/-! ## Marks -/

/-- A search that is under way is cut by a mark. The induction is on the text before the mark; the
characters to be skipped never reach beyond the mark. -/
theorem Recogniser.EndsAt.occurrencesFrom_append {mark : Char} (hend : pattern.EndsAt mark)
    (before : List Char) (front back : List Char) (skip : Nat) (hskip : skip ≤ front.length + 1) :
    occurrencesFrom pattern before skip (front ++ mark :: back) =
      occurrencesFrom pattern before skip (front ++ [mark]) ++
        occurrencesFrom pattern (mark :: (front.reverse ++ before)) 0 back := by
  induction front generalizing before skip with
  | nil =>
    cases skip with
    | zero =>
      have hmark := hend before [] back
      rw [List.nil_append, List.nil_append] at hmark
      rw [List.nil_append, List.nil_append, occurrencesFrom, occurrencesFrom, hmark]
      cases pattern before [mark] with
      | none => rfl
      | some result =>
        obtain ⟨found, after⟩ := result
        have hover : back.length - (after ++ back).length = 0 := by rw [List.length_append]; omega
        simp only [Option.map_some, hover]
        rfl
    | succ skip =>
      obtain rfl : skip = 0 := by simpa using hskip
      rfl
  | cons c front ih =>
    have hnext (next : Nat) (hnext : next ≤ front.length + 1) :=
      ih (c :: before) next hnext
    rw [List.reverse_cons, List.append_assoc, List.singleton_append]
    cases skip with
    | zero =>
      rw [List.cons_append, List.cons_append, occurrencesFrom, occurrencesFrom, ← List.cons_append,
        hend before (c :: front) back, List.cons_append]
      cases pattern before (c :: (front ++ [mark])) with
      | none => exact hnext 0 (Nat.zero_le _)
      | some result =>
        obtain ⟨found, after⟩ := result
        have hlength : (front ++ mark :: back).length - (after ++ back).length =
            (front ++ [mark]).length - after.length := by
          simp only [List.length_append, List.length_cons, List.length_nil]
          omega
        have hle : (front ++ [mark]).length - after.length ≤ front.length + 1 := by
          simp only [List.length_append, List.length_cons, List.length_nil]
          omega
        simp only [Option.map_some, hlength, hnext _ hle, List.cons_append]
    | succ skip => exact hnext skip (Nat.le_of_succ_le_succ hskip)

/-- **A mark cuts the search in two.** -/
theorem Recogniser.EndsAt.occurrences_append {mark : Char} (hend : pattern.EndsAt mark)
    (hlocal : pattern.Local) (hmark : isWordChar mark = false) (front back : List Char) :
    occurrences pattern (front ++ mark :: back) =
      occurrences pattern (front ++ [mark]) ++ occurrences pattern back := by
  rw [occurrences, hend.occurrencesFrom_append [] front back 0 (Nat.zero_le _),
    hlocal.occurrencesFrom_eq hmark]
  rfl

/-! ## Passing over -/

/-- A character that belongs to no word is passed over if the pattern does not occur there. -/
theorem Recogniser.Local.occurrences_cons (hlocal : pattern.Local) {c : Char} {rest : List Char}
    (hc : isWordChar c = false) (hnone : pattern [] (c :: rest) = none) :
    occurrences pattern (c :: rest) = occurrences pattern rest := by
  rw [occurrences, occurrencesFrom, hnone]
  exact hlocal.occurrencesFrom_eq hc [] rest

/-- A search finds nothing if the pattern occurs nowhere in the rest of the text. -/
theorem occurrencesFrom_eq_nil {before text : List Char}
    (hnone : ∀ front c back, text = front ++ c :: back →
      pattern (front.reverse ++ before) (c :: back) = none) :
    occurrencesFrom pattern before 0 text = [] := by
  induction text generalizing before with
  | nil => rfl
  | cons c rest ih =>
    have hfirst : pattern before (c :: rest) = none := hnone [] c rest rfl
    rw [occurrencesFrom, hfirst]
    refine ih fun front d back heq => ?_
    have hlater := hnone (c :: front) d back (by rw [heq]; rfl)
    rwa [List.reverse_cons, List.append_assoc] at hlater

/-- A pattern that occurs nowhere is not found. -/
theorem occurrences_eq_nil {text : List Char}
    (hnone : ∀ front c back, text = front ++ c :: back → pattern front.reverse (c :: back) = none) :
    occurrences pattern text = [] :=
  occurrencesFrom_eq_nil fun front c back heq => by
    rw [List.append_nil]
    exact hnone front c back heq

/-! ## Words -/

/-- No word starts right after a word. -/
theorem atWordStart_reverse_of_word {word : List Char} (hne : word ≠ [])
    (hword : ∀ d ∈ word, isWordChar d = true) :
    atWordStart word.reverse = false := by
  obtain rfl | ⟨front, last, rfl⟩ := word.eq_nil_or_concat
  · exact absurd rfl hne
  · have hlast := hword last (by simp)
    simp [atWordStart, hlast]

/-- Nothing is found inside a word nor at its end. -/
theorem Recogniser.StartsWords.occurrencesFrom_word (hstarts : pattern.StartsWords)
    (hlocal : pattern.Local) {before word rest : List Char} {c : Char}
    (hbefore : atWordStart before = false)
    (hword : ∀ d ∈ word, isWordChar d = true) (hc : isWordChar c = false) :
    occurrencesFrom pattern before 0 (word ++ c :: rest) = occurrences pattern rest := by
  induction word generalizing before with
  | nil =>
    rw [List.nil_append, occurrencesFrom, hstarts before _ hbefore]
    exact hlocal.occurrencesFrom_eq hc before rest
  | cons d word ih =>
    have hinside : atWordStart (d :: before) = false := by
      simp [atWordStart, hword d List.mem_cons_self]
    rw [List.cons_append, occurrencesFrom, hstarts before _ hbefore]
    exact ih hinside fun e he => hword e (List.mem_cons_of_mem d he)

/-- A word is passed over, with the character that ends it, if the pattern does not occur at its
start. -/
theorem Recogniser.StartsWords.occurrences_word (hstarts : pattern.StartsWords)
    (hlocal : pattern.Local) {word rest : List Char} {c : Char} (hne : word ≠ [])
    (hword : ∀ d ∈ word, isWordChar d = true)
    (hc : isWordChar c = false) (hnone : pattern [] (word ++ c :: rest) = none) :
    occurrences pattern (word ++ c :: rest) = occurrences pattern rest := by
  obtain ⟨d, tail, rfl⟩ := List.exists_cons_of_ne_nil hne
  have hinside : atWordStart [d] = false := by simp [atWordStart, hword d List.mem_cons_self]
  rw [occurrences, List.cons_append, occurrencesFrom, ← List.cons_append, hnone]
  exact hstarts.occurrencesFrom_word hlocal hinside
    (fun e he => hword e (List.mem_cons_of_mem d he)) hc

/-- A word at which the pattern occurs is found, and the search goes on after the character that
ends it. -/
theorem Recogniser.StartsWords.occurrences_found_word (hstarts : pattern.StartsWords)
    (hlocal : pattern.Local) {word rest : List Char} {c : Char} {found : α} (hne : word ≠ [])
    (hword : ∀ d ∈ word, isWordChar d = true)
    (hc : isWordChar c = false)
    (hfound : pattern [] (word ++ c :: rest) = some (found, c :: rest)) :
    occurrences pattern (word ++ c :: rest) = found :: occurrences pattern rest := by
  obtain ⟨d, tail, rfl⟩ := List.exists_cons_of_ne_nil hne
  have hinside := atWordStart_reverse_of_word hne hword
  rw [List.reverse_cons] at hinside
  rw [occurrences, List.cons_append, occurrencesFrom, ← List.cons_append, hfound]
  simp only [List.length_append, Nat.add_sub_cancel]
  rw [occurrencesFrom_length, ← List.nil_append (c :: rest),
    hstarts.occurrencesFrom_word hlocal hinside (by simp) hc]

/-- An occurrence that takes up the whole text is the only one. -/
theorem occurrences_eq_singleton {text : List Char} {found : α} (hne : text ≠ [])
    (hfound : pattern [] text = some (found, [])) : occurrences pattern text = [found] := by
  obtain ⟨c, rest, rfl⟩ := List.exists_cons_of_ne_nil hne
  have hover := occurrencesFrom_length pattern [c] rest []
  rw [List.append_nil] at hover
  rw [occurrences, occurrencesFrom, hfound]
  simp only [List.length_nil, Nat.sub_zero, hover]
  rfl

end Search

end ClassAtlas.Text
