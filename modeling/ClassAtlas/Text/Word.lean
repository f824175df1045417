import ClassAtlas.Text.Runs
import ClassAtlas.Text.WordTable

/-!
# Characters of names

Words are made of word characters. A name may hold a dollar sign as well, although a dollar sign is
no word character, so a new word can start right after one.
-/

namespace ClassAtlas.Text

/-- An ASCII letter, digit or underscore, or a word character beyond ASCII. -/
def isWordChar (c : Char) : Bool :=
  if c.toNat < 128 then c.isAlphanum || c = '_' else inRuns wordRuns c.toNat

/-- A character that a name may hold after its first one. -/
def isNameChar (c : Char) : Bool :=
  isWordChar c || c = '$'

/-- A character that a member name may start with. -/
def isNameStart (c : Char) : Bool :=
  c.isAlpha || c = '_' || c = '$'

/-- A character that the name of a parameter or local variable starts with by convention. -/
def isLowerStart (c : Char) : Bool :=
  c.isLower || c = '_' || c = '$'

/-- A character that a type name starts with by convention. -/
def isTypeStart (c : Char) : Bool :=
  c.isUpper

/-- A word may start here: the text before, which is given in reverse, does not end in a word
character. -/
def atWordStart (before : List Char) : Bool :=
  match before with
  | [] => true
  | c :: _ => !isWordChar c

/-- Exactly one of the two neighbours of this position is a word character. -/
def atWordBoundary (before after : List Char) : Bool :=
  !atWordStart before != !atWordStart after

end ClassAtlas.Text
