import ClassAtlas.Text.Blank
import ClassAtlas.Text.Word
import ClassAtlas.Text.Occurrence

/-!
# Branching

The complexity of a source text is the number of its branch openers: a branching keyword with the
opening parenthesis of its condition.
-/

namespace ClassAtlas.Source

open ClassAtlas.Text

/-- The text after the first of the given words that starts it. -/
def afterOneOf? (words : List (List Char)) (text : List Char) : Option (List Char) :=
  words.findSome? fun word => word.isPrefixOf? text

/-- The keywords that open a branch. -/
def branchWords : List (List Char) :=
  [['i', 'f'], ['s', 'w', 'i', 't', 'c', 'h'], ['f', 'o', 'r'], ['w', 'h', 'i', 'l', 'e']]

/-- A branching keyword at the start of a word, blanks if any, and an opening parenthesis. -/
def branchOpener : Recogniser Unit := fun before text =>
  if atWordStart before then
    match afterOneOf? branchWords text with
    | none => none
    | some after =>
      match afterBlanks after with
      | '(' :: rest => some ((), rest)
      | _ => none
  else none

/-- The number of branch openers in a text without noise. -/
def branchCount (text : List Char) : Nat :=
  (occurrences branchOpener text).length

/-- How complex a type is, by its number of branch openers. -/
inductive ComplexityBand
  | low
  | moderate
  | high
  deriving DecidableEq, Repr

/-- Up to five branches are low complexity, up to ten moderate. -/
def ComplexityBand.ofCount (count : Nat) : ComplexityBand :=
  if count ≤ 5 then .low else if count ≤ 10 then .moderate else .high

/-- The name of a band in every listing. -/
def ComplexityBand.name : ComplexityBand → String
  | .low => "low"
  | .moderate => "moderate"
  | .high => "high"

end ClassAtlas.Source
