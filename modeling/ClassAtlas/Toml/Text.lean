import ClassAtlas.Text.Hex

/-!
# Texts and keys of TOML documents

Each reader answers what it read and the text after it.
-/

namespace ClassAtlas.Toml

open ClassAtlas.Text (hexValue?)

/-- A reader takes a piece off the front of a text. -/
abbrev Reader (α : Type) := List Char → Option (α × List Char)

/-- A space or a tab. -/
def isSpace (c : Char) : Bool :=
  c = ' ' || c = '\t'

/-- The text after its leading spaces and tabs. -/
def afterSpaces (text : List Char) : List Char :=
  text.dropWhile isSpace

/-- The text after the end of a line. -/
def afterNewline? : List Char → Option (List Char)
  | '\n' :: rest => some rest
  | '\r' :: '\n' :: rest => some rest
  | _ => none

/-- A character that may stand in a comment: no control character but the tab. -/
def isCommentChar (c : Char) : Bool :=
  c = '\t' || (0x20 ≤ c.toNat && c.toNat ≠ 0x7F)

/-- The text after a comment, if one comes next. -/
def afterComment : List Char → List Char
  | '#' :: rest => rest.dropWhile isCommentChar
  | text => text

/-- The text after the rest of a line: spaces, a comment if there is one, and the end of the line or
of the document. -/
def afterLine? (text : List Char) : Option (List Char) :=
  match afterComment (afterSpaces text) with
  | [] => some []
  | rest => afterNewline? rest

/-- A number of exactly `count` hexadecimal digits that follows the digits read so far. -/
def hexNumber? : (count : Nat) → (value : Nat) → Reader Nat
  | 0, value, text => some (value, text)
  | _ + 1, _, [] => none
  | count + 1, value, c :: rest =>
    match hexValue? c with
    | none => none
    | some digit => hexNumber? count (value * 16 + digit) rest

/-- A character given by its code point of `count` hexadecimal digits. -/
def codePoint? (count : Nat) : Reader Char := fun text =>
  match hexNumber? count 0 text with
  | none => none
  | some (code, rest) => if code.isValidChar then some (Char.ofNat code, rest) else none

/-- What follows a backslash in a basic string. -/
def escape? : Reader Char
  | 'b' :: rest => some (Char.ofNat 8, rest)
  | 't' :: rest => some ('\t', rest)
  | 'n' :: rest => some ('\n', rest)
  | 'f' :: rest => some (Char.ofNat 12, rest)
  | 'r' :: rest => some ('\r', rest)
  | '"' :: rest => some ('"', rest)
  | '\\' :: rest => some ('\\', rest)
  | 'u' :: rest => codePoint? 4 rest
  | 'U' :: rest => codePoint? 8 rest
  | _ => none

/-- Put a character in front of what a reader goes on to read. -/
def prepend (c : Char) (result : Option (List Char × List Char)) : Option (List Char × List Char) :=
  result.map fun (text, rest) => (c :: text, rest)

/-- The rest of a basic string, in at most `bound` steps. -/
def basicRest? : (bound : Nat) → Reader (List Char)
  | 0, _ => none
  | _ + 1, [] => none
  | bound + 1, c :: rest =>
    if c = '"' then some ([], rest)
    else if c = '\\' then
      match escape? rest with
      | none => none
      | some (c, rest) => prepend c (basicRest? bound rest)
    else if isCommentChar c then prepend c (basicRest? bound rest)
    else none

/-- The rest of a literal string, which has no escapes. -/
def literalRest? : Reader (List Char)
  | [] => none
  | c :: rest =>
    if c = '\x27' then some ([], rest)
    else if isCommentChar c then prepend c (literalRest? rest)
    else none

/-- The text after spaces, tabs and line ends. -/
def afterBlankLines : List Char → List Char
  | [] => []
  | '\n' :: rest => afterBlankLines rest
  | '\r' :: '\n' :: rest => afterBlankLines rest
  | c :: rest => if isSpace c then afterBlankLines rest else c :: rest

/-- The end of a string of several lines: three quotes, and up to two more that belong to the
string. -/
def closingQuotes? (quote : Char) (text : List Char) : Option (List Char × List Char) :=
  let quotes := (text.takeWhile (· = quote)).length
  if quotes < 3 then none
  else
    let inside := min (quotes - 3) 2
    some (List.replicate inside quote, text.drop (inside + 3))

/-- The rest of a string of several lines. In a basic one a backslash at the end of a line takes
away all blanks and line ends after it. -/
def multilineRest? (quote : Char) : (bound : Nat) → Reader (List Char)
  | 0, _ => none
  | _ + 1, [] => none
  | bound + 1, c :: rest =>
    if c = quote then
      match closingQuotes? quote (c :: rest) with
      | some result => some result
      | none => prepend c (multilineRest? quote bound rest)
    else if c = '\\' ∧ quote = '"' then
      match afterNewline? (afterSpaces rest) with
      | some after => multilineRest? quote bound (afterBlankLines after)
      | none =>
        match escape? rest with
        | none => none
        | some (c, rest) => prepend c (multilineRest? quote bound rest)
    else
      match afterNewline? (c :: rest) with
      | some rest => prepend '\n' (multilineRest? quote bound rest)
      | none => if isCommentChar c then prepend c (multilineRest? quote bound rest) else none

/-- The text without one line end at its start. -/
def afterFirstNewline (text : List Char) : List Char :=
  (afterNewline? text).getD text

/-- A string of any of the four forms. -/
def string? (text : List Char) : Option (String × List Char) :=
  let result := match text with
    | '"' :: '"' :: '"' :: rest => multilineRest? '"' text.length (afterFirstNewline rest)
    | '"' :: rest => basicRest? text.length rest
    | '\x27' :: '\x27' :: '\x27' :: rest =>
      multilineRest? '\x27' text.length (afterFirstNewline rest)
    | '\x27' :: rest => literalRest? rest
    | _ => none
  result.map fun (chars, rest) => (String.ofList chars, rest)

/-- A character of a key without quotes. -/
def isBareKeyChar (c : Char) : Bool :=
  c.isAlphanum || c = '_' || c = '-'

/-- One part of a key, with or without quotes. -/
def simpleKey? (text : List Char) : Option (String × List Char) :=
  let quoted := match text with
    | '"' :: rest => (basicRest? text.length rest).map fun (chars, rest) =>
      (String.ofList chars, rest)
    | '\x27' :: rest => (literalRest? rest).map fun (chars, rest) => (String.ofList chars, rest)
    | _ => none
  let bare := text.takeWhile isBareKeyChar
  if bare.isEmpty then quoted else some (String.ofList bare, text.dropWhile isBareKeyChar)

/-- How many parts a key may have, and how deep values may be nested. -/
def nestingLimit : Nat := 80

/-- A key: parts separated by dots, with spaces around them. It has at most `bound` parts. What is
read are the parts before the last one, and the last one. -/
def key? : (bound : Nat) → Reader (List String × String)
  | 0, _ => none
  | bound + 1, text =>
    match simpleKey? (afterSpaces text) with
    | none => none
    | some (part, rest) =>
      match afterSpaces rest with
      | '.' :: rest => (key? bound rest).map fun ((path, last), rest) =>
        ((part :: path, last), rest)
      | rest => some (([], part), rest)

end ClassAtlas.Toml
