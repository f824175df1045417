import ClassAtlas.Toml.Node
import ClassAtlas.Toml.Number

/-!
# Reading TOML documents

A document is read from its first character to its last; a text that is no document has no reading.
-/

namespace ClassAtlas.Toml

/-- The text after spaces, line ends and comments, inside of a comment or not. -/
def afterFillerFrom (inComment : Bool) : List Char → List Char
  | [] => []
  | '\n' :: rest => afterFillerFrom false rest
  | '\r' :: '\n' :: rest => afterFillerFrom false rest
  | c :: rest =>
    if inComment then
      if isCommentChar c then afterFillerFrom true rest else c :: rest
    else if isSpace c then afterFillerFrom false rest
    else if c = '#' then afterFillerFrom true rest
    else c :: rest

/-- The text after spaces, line ends and comments. -/
def afterFiller (text : List Char) : List Char :=
  afterFillerFrom false text

/-- A value that is neither an array nor a table. -/
def scalar? (text : List Char) : Option (Node × List Char) :=
  match text with
  | [] => none
  | c :: _ =>
    if c = '"' ∨ c = '\x27' then (string? text).map fun (value, rest) => (.text value, rest)
    else if c = 't' then ("true".toList.isPrefixOf? text).map fun rest => (.boolean true, rest)
    else if c = 'f' then ("false".toList.isPrefixOf? text).map fun rest => (.boolean false, rest)
    else
      match moment? text with
      | some rest => some (.moment, rest)
      | none =>
        match real? text with
        | some rest => some (.real, rest)
        | none => (integer? text).map fun (value, rest) => (.integer value, rest)

mutual

/-- A value at the given depth, in at most `bound` steps. -/
def value? (bound depth : Nat) (text : List Char) : Option (Node × List Char) :=
  match bound with
  | 0 => none
  | bound + 1 =>
    match text with
    | '[' :: rest =>
      if nestingLimit ≤ depth + 1 then none
      else (items? bound (depth + 1) rest).map fun (items, rest) => (.array items, rest)
    | '{' :: rest =>
      if nestingLimit ≤ depth + 1 then none
      else
        match afterSpaces rest with
        | '}' :: rest => some (.table .closed [], rest)
        | _ => (members? bound (depth + 1) [] rest).map fun (entries, rest) =>
          (.table .closed entries, rest)
    | _ => scalar? text

/-- The items of an array up to its closing bracket. A comma may stand after the last one. -/
def items? (bound depth : Nat) (text : List Char) : Option (List Node × List Char) :=
  match bound with
  | 0 => none
  | bound + 1 =>
    match afterFiller text with
    | ']' :: rest => some ([], rest)
    | text =>
      match value? bound depth text with
      | none => none
      | some (item, rest) =>
        match afterFiller rest with
        | ',' :: rest => (items? bound depth rest).map fun (items, rest) => (item :: items, rest)
        | ']' :: rest => some ([item], rest)
        | _ => none

/-- The members of a table in braces up to its closing brace. They stand on one line. -/
def members? (bound depth : Nat) (entries : Entries) (text : List Char) :
    Option (Entries × List Char) :=
  match bound with
  | 0 => none
  | bound + 1 =>
    match key? nestingLimit.pred text with
    | some ((path, key), '=' :: rest) =>
      match value? bound depth (afterSpaces rest) with
      | none => none
      | some (value, rest) =>
        match assign path key value .closed entries with
        | none => none
        | some entries =>
          match afterSpaces rest with
          | ',' :: rest => members? bound depth entries rest
          | '}' :: rest => some (entries, rest)
          | _ => none
    | _ => none

end

/-- The document read so far: its root table, and the path of the table whose header came last. -/
structure State where
  root : Entries
  current : List String

/-- The state after the header of a table; the brackets have been read. -/
def afterHeader? (closing : List Char) (enter : List String → String → Entries → Option Entries)
    (state : State) (text : List Char) : Option (State × List Char) :=
  match key? nestingLimit.pred text with
  | none => none
  | some ((path, key), rest) =>
    match (closing.isPrefixOf? rest).bind afterLine? with
    | none => none
    | some rest => (enter path key state.root).map fun root => (⟨root, path ++ [key]⟩, rest)

/-- The state after a key with its value. -/
def afterAssignment? (state : State) (text : List Char) : Option (State × List Char) :=
  match key? nestingLimit.pred text with
  | some ((path, key), '=' :: rest) =>
    match value? text.length 0 (afterSpaces rest) with
    | none => none
    | some (value, rest) =>
      match afterLine? rest with
      | none => none
      | some rest =>
        (changeAt false (assign path key value) state.current .header state.root).map fun root =>
          (⟨root, state.current⟩, rest)
  | _ => none

/-- The state after one line, or several if a value takes more than one. -/
def afterExpression? (state : State) (text : List Char) : Option (State × List Char) :=
  match afterSpaces text with
  | [] => some (state, [])
  | '#' :: rest => (afterLine? ('#' :: rest)).map fun rest => (state, rest)
  | '[' :: '[' :: rest => afterHeader? [']', ']'] appendTable state rest
  | '[' :: rest => afterHeader? [']'] openTable state rest
  | rest =>
    match afterNewline? rest with
    | some rest => some (state, rest)
    | none => afterAssignment? state rest

/-- The root table of the document from here on, in at most `bound` steps. -/
def documentFrom? : (bound : Nat) → State → List Char → Option Entries
  | _, state, [] => some state.root
  | 0, _, _ => none
  | bound + 1, state, text =>
    match afterExpression? state text with
    | none => none
    | some (state, rest) => documentFrom? bound state rest

/-- The text without a byte order mark at its start. -/
def withoutMark : List Char → List Char
  | c :: rest => if c.toNat = 0xFEFF then rest else c :: rest
  | [] => []

/-- The root table of a document. Every step takes at least one character. -/
def document? (text : String) : Option Entries :=
  let text := withoutMark text.toList
  documentFrom? text.length ⟨[], []⟩ text

end ClassAtlas.Toml
