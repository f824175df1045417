/-!
# Columns of a report

A text is cut to the bytes that a column may take, at a whole character, and padded by characters.
-/

namespace ClassAtlas.Text

/-- The number of bytes of a text in UTF-8. -/
def byteLength : List Char → Nat
  | [] => 0
  | c :: rest => c.utf8Size + byteLength rest

/-- The longest prefix of whole characters that takes at most so many bytes. -/
def takeWithin : (bytes : Nat) → List Char → List Char
  | _, [] => []
  | bytes, c :: rest =>
    if c.utf8Size ≤ bytes then c :: takeWithin (bytes - c.utf8Size) rest else []

/-- The text if it fits, and otherwise as much of it as fits with three dots after it. -/
def fitColumn (width : Nat) (text : List Char) : List Char :=
  if byteLength text ≤ width then text else takeWithin (width - 3) text ++ ['.', '.', '.']

/-- The text with spaces after it, at least `width` characters in all. -/
def padRight (width : Nat) (text : List Char) : List Char :=
  text ++ List.replicate (width - text.length) ' '

/-- The text with spaces before it, at least `width` characters in all. -/
def padLeft (width : Nat) (text : List Char) : List Char :=
  List.replicate (width - text.length) ' ' ++ text

end ClassAtlas.Text
