import ClassAtlas.NameSet
import ClassAtlas.Source.Branching
import ClassAtlas.Source.References

/-!
# Fields

The fields of a type tell what it is made of. A field of a known type is a composition. A field of a
container type aggregates the known types among its type arguments, and a static field of the own
type marks a singleton, which aggregates itself.
-/

namespace ClassAtlas.Source

open ClassAtlas.Text

/-- The outline with everything inside parentheses replaced by spaces, when `depth` parentheses are
open. Parameters are no fields. -/
def maskParametersFrom : (depth : Nat) → List Char → List Char
  | _, [] => []
  | depth, c :: rest =>
    if c = '(' then c :: maskParametersFrom (depth + 1) rest
    else if c = ')' then c :: maskParametersFrom (depth - 1) rest
    else if 0 < depth then ' ' :: maskParametersFrom depth rest
    else c :: maskParametersFrom depth rest

/-- The outline with its parameter lists blanked out. -/
def maskParameters (outline : List Char) : List Char :=
  maskParametersFrom 0 outline

/-- The marks after the name of a field. -/
def fieldMarks : List Char := [';', '=', ',']

/-- The text after the name of a field and the mark that follows it. -/
def afterFieldName? (text : List Char) : Option (List Char) :=
  match name? isNameStart (afterBlanks text) with
  | none => none
  | some (_, rest) => afterMark? fieldMarks rest

/-- The type arguments of a container field whose opening bracket has been read. They reach to the
last closing bracket that a field name can follow. -/
def containerArguments? : List Char → Option (List Char × List Char)
  | [] => none
  | c :: rest =>
    if endsTypeText c then none
    else
      match containerArguments? rest with
      | some (arguments, after) => some (c :: arguments, after)
      | none => if c = '>' then (afterFieldName? rest).map fun after => ([], after) else none

/-- A field of the container type with the given name; what is read are its type arguments. -/
def containerFieldOf? (container : String) (text : List Char) : Option (List Char × List Char) :=
  match (container.toList.isPrefixOf? text).bind (afterMark? ['<']) with
  | none => none
  | some rest => containerArguments? rest

/-- A field of one of the container types. -/
def containerField (containers : NameSet) : Recogniser (List Char) := fun before text =>
  if atWordBoundary before text then
    containers.toList.findSome? fun container => containerFieldOf? container text
  else none

/-- The modifiers that a field may have. -/
def fieldModifiers : List (List Char) :=
  ["public".toList, "protected".toList, "private".toList, "static".toList, "final".toList,
    "transient".toList, "volatile".toList]

/-- One modifier and the text after the blanks that follow it. -/
def modifier? (text : List Char) : Option (List Char × List Char) :=
  fieldModifiers.findSome? fun word =>
    ((word.isPrefixOf? text).bind afterBlankRun?).map fun rest => (word, rest)

/-- The modifiers in front of a text, at most `count` of them, and the text after them. -/
def leadingModifiers : (count : Nat) → List Char → List (List Char) × List Char
  | 0, text => ([], text)
  | count + 1, text =>
    match modifier? text with
    | none => ([], text)
    | some (word, rest) =>
      let (words, after) := leadingModifiers count rest
      (word :: words, after)

/-- A field as it is declared. -/
structure Field where
  /-- The modifiers in the order in which they are written. -/
  modifiers : List (List Char)
  /-- The type without its arguments. -/
  type : List Char
  deriving DecidableEq, Repr

/-- The modifiers in front of a text, and the text after them. A modifier takes up at least one
character, so there are no more of them than characters; they are only counted if there is a
modifier at all. -/
def modifiers (text : List Char) : List (List Char) × List Char :=
  if (modifier? text).isSome then leadingModifiers text.length text else ([], text)

/-- The declaration of a field: modifiers, a type and a name. -/
def fieldDeclaration : Recogniser Field := fun before text =>
  if atWordStart before then
    let (modifiers, rest) := modifiers text
    match typeName? rest with
    | none => none
    | some (type, rest) =>
      (afterDeclared? isNameStart fieldMarks rest).map fun after => (⟨modifiers, type⟩, after)
  else none

/-- The types that the fields of a type refer to. -/
structure FieldTargets where
  composition : NameSet
  aggregation : NameSet
  deriving DecidableEq, Repr

/-- The known types other than the own one among the type arguments of container fields. -/
def containedTypes (containers : NameSet) (own : String) (known : NameSet) (members : List Char) :
    List String :=
  (((occurrences (containerField containers) members).flatMap (occurrences typeMention)).map
    String.ofList).filter fun name => name ≠ own ∧ name ∈ known

/-- The own type if one of the fields is static and of that type. -/
def singleton (own : String) (fields : List Field) : List String :=
  if fields.any fun field => String.ofList field.type = own ∧
  "static".toList ∈ field.modifiers then [own]
  else []

/-- The field targets in a declaration outline. What is aggregated is not composed. -/
def fieldTargets (containers : NameSet) (own : String) (known : NameSet) (outline : List Char) :
    FieldTargets :=
  let members := maskParameters outline
  let fields := occurrences fieldDeclaration members
  let aggregation :=
    NameSet.ofList (containedTypes containers own known members ++ singleton own fields)
  let types := (fields.map fun field => String.ofList field.type).filter fun name =>
    name ≠ own ∧ name ∉ containers ∧ name ∈ known
  { composition := (NameSet.ofList types).filter (· ∉ aggregation), aggregation }

end ClassAtlas.Source
