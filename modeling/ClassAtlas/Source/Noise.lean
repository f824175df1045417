/-!
# Comments and literals

A source text is read for declarations only, so its comments and its string and character literals
are noise. They are found by one scan from the left; an opener that has no end is an ordinary
character.
-/

namespace ClassAtlas.Source

/-- The text after the first end mark of a block comment. -/
def afterBlockEnd? : List Char → Option (List Char)
  | '*' :: '/' :: rest => some rest
  | _ :: rest => afterBlockEnd? rest
  | [] => none

/-- The text after the closing quote of a literal whose opening quote has been read. A backslash
takes the next character with it, and a line feed on its own ends the search. -/
def afterLiteral? (quote : Char) : List Char → Option (List Char)
  | [] => none
  | c :: rest =>
    if c = '\\' then
      match rest with
      | [] => none
      | _ :: rest => afterLiteral? quote rest
    else if c = quote then some rest
    else if c = '\n' then none
    else afterLiteral? quote rest

/-- The text after the comment or literal that starts the given text, if one does. A line comment
ends before its line feed. -/
def afterNoise? : List Char → Option (List Char)
  | '/' :: '/' :: rest => some (rest.dropWhile (· ≠ '\n'))
  | '/' :: '*' :: rest => afterBlockEnd? rest
  | '"' :: rest => afterLiteral? '"' rest
  | '\x27' :: rest => afterLiteral? '\x27' rest
  | _ => none

/-- The text from here on without noise, when the next `skip` characters belong to noise. -/
def withoutNoiseFrom : (skip : Nat) → List Char → List Char
  | _, [] => []
  | skip + 1, _ :: rest => withoutNoiseFrom skip rest
  | 0, c :: rest =>
    match afterNoise? (c :: rest) with
    | some after => withoutNoiseFrom (rest.length - after.length) rest
    | none => c :: withoutNoiseFrom 0 rest

/-- The text with every comment and literal taken out. -/
def withoutNoise (text : List Char) : List Char :=
  withoutNoiseFrom 0 text

end ClassAtlas.Source
