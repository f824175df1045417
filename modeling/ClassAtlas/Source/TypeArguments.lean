import ClassAtlas.Text.Blank

/-!
# Type arguments

A list of type arguments stands in angle brackets, which may be nested up to three deep. It holds no
mark of another construct: no semicolon, equals sign, parenthesis or brace.
-/

namespace ClassAtlas.Source

open ClassAtlas.Text

/-- How deep type arguments may be nested. -/
def maxArgumentDepth : Nat := 3

/-- A character that cannot stand in type arguments or in a declared type. -/
def endsTypeText (c : Char) : Bool :=
  c = ';' || c = '=' || c = '(' || c = ')' || c = '{' || c = '}'

/-- The text after the bracket that closes the first of the `opened` brackets. -/
def afterClosing? : (opened : Nat) → List Char → Option (List Char)
  | _, [] => none
  | opened, c :: rest =>
    if c = '<' then
      if opened < maxArgumentDepth then afterClosing? (opened + 1) rest else none
    else if c = '>' then
      if opened ≤ 1 then some rest else afterClosing? (opened - 1) rest
    else if endsTypeText c then none
    else afterClosing? opened rest

/-- The text after the list of type arguments that starts it. -/
def afterTypeArguments? : List Char → Option (List Char)
  | '<' :: rest => afterClosing? 1 rest
  | _ => none

/-- The text after the type arguments if an angle bracket comes next, and the text itself
otherwise. -/
def afterOptionalTypeArguments? (text : List Char) : Option (List Char) :=
  match afterBlanks text with
  | '<' :: rest => afterClosing? 1 rest
  | _ => some text

end ClassAtlas.Source
