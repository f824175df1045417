import ClassAtlas.Text.Blank
import ClassAtlas.Text.Word
import ClassAtlas.Text.Occurrence

/-!
# Names and marks

The small pieces that declarations are made of. Each reader answers the text after the piece that it
read.
-/

namespace ClassAtlas.Source

open ClassAtlas.Text

/-- A name whose first character is in the given class, with all name characters that follow it. -/
def name? (start : Char → Bool) : List Char → Option (List Char × List Char)
  | [] => none
  | c :: rest =>
    if start c then some (c :: rest.takeWhile isNameChar, rest.dropWhile isNameChar) else none

/-- A type name starts with a capital letter. -/
def typeName? : List Char → Option (List Char × List Char) :=
  name? isTypeStart

/-- The whole text is a type name. -/
def isTypeName : List Char → Bool
  | [] => false
  | c :: rest => isTypeStart c && rest.all isNameChar

/-- The text after one of the marks, with blanks before it if any. -/
def afterMark? (marks : List Char) (text : List Char) : Option (List Char) :=
  match afterBlanks text with
  | [] => none
  | c :: rest => if c ∈ marks then some rest else none

/-- The text after a keyword at the start of a word and the blanks that follow it. -/
def afterKeyword? (keyword : List Char) (before text : List Char) : Option (List Char) :=
  if atWordStart before then (keyword.isPrefixOf? text).bind afterBlankRun? else none

/-- A type name at the start of a word. -/
def typeMention : Recogniser (List Char) := fun before text =>
  if atWordStart before then typeName? text else none

end ClassAtlas.Source
