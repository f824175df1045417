import ClassAtlas.Decimal.Shortest

/-!
# JSON documents

The value type of JSON and its two texts: one compact line, and one indented by two spaces a level.
-/

namespace ClassAtlas

/-- A JSON value. The members of an object keep their order. -/
inductive Json
  | null
  | bool (value : Bool)
  | natural (value : Nat)
  | real (value : Float)
  | text (value : String)
  | list (items : List Json)
  | object (members : List (String × Json))
  deriving Inhabited

namespace Json

/-- A code of at most four hexadecimal digits, with leading zeros. -/
def hex4 (code : Nat) : List Char :=
  let digits := Nat.toDigits 16 code
  List.replicate (4 - digits.length) '0' ++ digits

/-- The characters that stand for one character inside a string. -/
def escaped (c : Char) : List Char :=
  if c = '"' then ['\\', '"']
  else if c = '\\' then ['\\', '\\']
  else if 32 ≤ c.toNat then [c]
  else if c = '\n' then ['\\', 'n']
  else if c = '\r' then ['\\', 'r']
  else if c = '\t' then ['\\', 't']
  else if c.toNat = 8 then ['\\', 'b']
  else if c.toNat = 12 then ['\\', 'f']
  else '\\' :: 'u' :: hex4 c.toNat

/-- A string in quotes. -/
def quote (text : String) : String :=
  "\"" ++ String.ofList (text.toList.flatMap escaped) ++ "\""

/-- The text of a value that has no parts. -/
def scalar : Json → String
  | null => "null"
  | bool value => if value then "true" else "false"
  | natural value => toString value
  | real value => Decimal.shortest .json value
  | text value => quote value
  | list _ => "[]"
  | object _ => "\x7b\x7d"

mutual

/-- The value on one line, without spaces. -/
def compact : Json → String
  | list items => "[" ++ String.intercalate "," (compactItems items) ++ "]"
  | object members => "\x7b" ++ String.intercalate "," (compactMembers members) ++ "\x7d"
  | value => scalar value

/-- The items of a list, each on its own. -/
def compactItems : List Json → List String
  | [] => []
  | item :: rest => compact item :: compactItems rest

/-- The members of an object, each with its key. -/
def compactMembers : List (String × Json) → List String
  | [] => []
  | (key, value) :: rest => (quote key ++ ":" ++ compact value) :: compactMembers rest

end

/-- The start of a line at the given level. -/
def lineStart (level : Nat) : String :=
  String.ofList ('\n' :: List.replicate (2 * level) ' ')

mutual

/-- The value with one item or member a line. -/
def indented (level : Nat) : Json → String
  | list (item :: rest) =>
    "[" ++ String.intercalate "," (indentedItems (level + 1) (item :: rest)) ++
      lineStart level ++ "]"
  | object (member :: rest) =>
    "\x7b" ++ String.intercalate "," (indentedMembers (level + 1) (member :: rest)) ++
      lineStart level ++ "\x7d"
  | value => scalar value

/-- The items of a list, each on a line of its own. -/
def indentedItems (level : Nat) : List Json → List String
  | [] => []
  | item :: rest => (lineStart level ++ indented level item) :: indentedItems level rest

/-- The members of an object, each on a line of its own. -/
def indentedMembers (level : Nat) : List (String × Json) → List String
  | [] => []
  | (key, value) :: rest =>
    (lineStart level ++ quote key ++ ": " ++ indented level value) :: indentedMembers level rest

end

/-- The value as a document for readers. -/
def pretty (value : Json) : String :=
  indented 0 value

end Json

end ClassAtlas
