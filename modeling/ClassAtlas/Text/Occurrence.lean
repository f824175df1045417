/-!
# Occurrences of a pattern in a text

A pattern is given by a recogniser. Its occurrences in a text are found from left to right, each
search starting where the last occurrence ended, so that they do not overlap.
-/

namespace ClassAtlas.Text

/-- A recogniser is asked at one position of a text, with the text before it in reverse and the text
from it on. If the pattern occurs there it answers what it read and the text after the
occurrence. -/
abbrev Recogniser (α : Type) := List Char → List Char → Option (α × List Char)

/-- The occurrences from here on, when the next `skip` characters belong to the last occurrence. -/
def occurrencesFrom {α : Type} (pattern : Recogniser α) :
    (before : List Char) → (skip : Nat) → List Char → List α
  | _, _, [] => []
  | before, skip + 1, c :: rest => occurrencesFrom pattern (c :: before) skip rest
  | before, 0, c :: rest =>
    match pattern before (c :: rest) with
    | some (found, after) =>
      found :: occurrencesFrom pattern (c :: before) (rest.length - after.length) rest
    | none => occurrencesFrom pattern (c :: before) 0 rest

/-- What the pattern reads at its successive occurrences in the text. -/
def occurrences {α : Type} (pattern : Recogniser α) (text : List Char) : List α :=
  occurrencesFrom pattern [] 0 text

/-- What the pattern reads at the leftmost position where it occurs, if it occurs. -/
def firstOccurrenceFrom {α : Type} (pattern : Recogniser α) : (before text : List Char) → Option α
  | _, [] => none
  | before, c :: rest =>
    match pattern before (c :: rest) with
    | some (found, _) => some found
    | none => firstOccurrenceFrom pattern (c :: before) rest

/-- What the pattern reads at its leftmost occurrence in the text. -/
def firstOccurrence {α : Type} (pattern : Recogniser α) (text : List Char) : Option α :=
  firstOccurrenceFrom pattern [] text

end ClassAtlas.Text
