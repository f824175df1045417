import ClassAtlas.NameSet
import ClassAtlas.TypeKind
import ClassAtlas.Source.Lexeme

/-!
# Type headers

The header of a declaration tells the kind of the type, the class that it extends and the interfaces
that it implements. All are read from a text without noise.
-/

namespace ClassAtlas.Source

open ClassAtlas.Text

/-- The declaration of an abstract class. An access modifier in front of it makes no difference. -/
def abstractClass : Recogniser Unit := fun before text =>
  match (afterKeyword? "abstract".toList before text).bind (afterKeyword? "class".toList []) with
  | none => none
  | some rest => (name? isNameStart rest).map fun (_, after) => ((), after)

/-- The word occurs in the text. -/
def occursIn (word : List Char) : List Char → Bool
  | [] => word.isEmpty
  | c :: rest => word.isPrefixOf (c :: rest) || occursIn word rest

/-- The shortest piece of whole characters at the front of a text that takes at least so many
bytes. -/
def takeBytes : (bytes : Nat) → List Char → List Char
  | _, [] => []
  | bytes, c :: rest => if bytes = 0 then [] else c :: takeBytes (bytes - c.utf8Size) rest

/-- How far in front of an interface declaration a realisation is looked for, in bytes. -/
def realisationReach : Nat := 20

/-- The word for realisation stands shortly before a position. The text before is given in
reverse. -/
def followsRealisation (before : List Char) : Bool :=
  occursIn "implements".toList.reverse (takeBytes realisationReach before)

/-- The access modifiers that may stand before the declaration of an interface. -/
def accessWords : List (List Char) :=
  ["public".toList, "protected".toList, "private".toList]

/-- The text after the keyword of an interface and its name. -/
def afterInterface? (before text : List Char) : Option (List Char) :=
  ((afterKeyword? "interface".toList before text).bind (name? isNameStart)).map (·.2)

/-- The declaration of an interface, with its access modifier if it has one. What is read is whether
the word for realisation stands shortly before it, in which case nothing is declared. -/
def interfaceDeclaration : Recogniser Bool := fun before text =>
  let modified := accessWords.findSome? fun word =>
    (afterKeyword? word before text).bind (afterInterface? [])
  (modified.or (afterInterface? before text)).map fun after => (followsRealisation before, after)

/-- An abstract class counts first, then an interface; all else is concrete. -/
def kind (text : List Char) : TypeKind :=
  if (firstOccurrence abstractClass text).isSome then .abstract
  else if (occurrences interfaceDeclaration text).any (!·) then .interface
  else .concrete

/-- The class named after the keyword for extension. -/
def extension : Recogniser (List Char) := fun before text =>
  (afterKeyword? "extends".toList before text).bind typeName?

/-- The class that the type extends: the first one named before the first opening brace. -/
def superclass? (text : List Char) : Option String :=
  (firstOccurrence extension (text.takeWhile (· ≠ '{'))).map String.ofList

/-- The clause after the keyword for realisation, up to the next opening brace. A clause without any
character needs a blank of its own besides the one that ends the keyword. -/
def realisation : Recogniser (List Char) := fun before text =>
  if atWordStart before then
    match "implements".toList.isPrefixOf? text with
    | none => none
    | some rest =>
      let blanks := rest.takeWhile isBlank
      let clause := (afterBlanks rest).takeWhile (· ≠ '{')
      let after := (afterBlanks rest).dropWhile (· ≠ '{')
      if blanks.isEmpty then none
      else if clause.isEmpty && blanks.length = 1 then none
      else some (clause, after)
  else none

/-- The name of one entry of the clause, without its type arguments. -/
def entryName (entry : List Char) : List Char :=
  trim (entry.takeWhile (· ≠ '<'))

/-- The type names listed in the first clause of realisation. -/
def interfaces (text : List Char) : NameSet :=
  match firstOccurrence realisation text with
  | none => ∅
  | some clause =>
    NameSet.ofList
      ((((splitAt (· = ',') clause).map entryName).filter isTypeName).map String.ofList)

end ClassAtlas.Source
