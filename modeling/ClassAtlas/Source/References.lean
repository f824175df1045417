import ClassAtlas.NameSet
import ClassAtlas.Source.Lexeme
import ClassAtlas.Source.TypeArguments

/-!
# References to other types

A type depends on another type when its text creates an object of it, selects a member of it, or
declares something of that type.
-/

namespace ClassAtlas.Source

open ClassAtlas.Text

/-- The text after a declared name and one of the marks, where the type has just been read. The type
may have arguments, and blanks separate it from the name. -/
def afterDeclared? (start : Char → Bool) (marks : List Char) (text : List Char) :
    Option (List Char) :=
  match afterOptionalTypeArguments? text with
  | none => none
  | some rest =>
    match (afterBlankRun? rest).bind (name? start) with
    | none => none
    | some (_, rest) => afterMark? marks rest

/-- An object creation: the keyword and the type. -/
def creation : Recogniser (List Char) := fun before text =>
  (afterKeyword? ['n', 'e', 'w'] before text).bind typeName?

/-- A type followed by a dot and the start of a member name. -/
def memberAccess : Recogniser (List Char) := fun before text =>
  match typeMention before text with
  | none => none
  | some (type, rest) =>
    match (afterMark? ['.'] rest).map afterBlanks with
    | some (c :: rest) => if isNameStart c then some (type, rest) else none
    | _ => none

/-- A type and a name declared with it, before one of the marks. -/
def declarationBefore (marks : List Char) : Recogniser (List Char) := fun before text =>
  match typeMention before text with
  | none => none
  | some (type, rest) => (afterDeclared? isLowerStart marks rest).map fun after => (type, after)

/-- The ways in which a text refers to a type. -/
def referencePatterns : List (Recogniser (List Char)) :=
  [creation, memberAccess, declarationBefore [';', '=', ',', ')', ':'], declarationBefore ['(']]

/-- The known types other than the own one that a text without noise refers to. -/
def references (own : String) (known : NameSet) (text : List Char) : NameSet :=
  NameSet.ofList <|
    ((referencePatterns.flatMap fun pattern => occurrences pattern text).map String.ofList).filter
      fun name => name ≠ own ∧ name ∈ known

end ClassAtlas.Source
