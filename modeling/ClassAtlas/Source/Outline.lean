/-!
# Declaration outline

The outline of a source text keeps what stands at most a given number of braces deep. At depth one
these are the header of a type and its member declarations without the bodies of its methods.
-/

namespace ClassAtlas.Source

/-- The outline from here on, when `depth` braces are open. A closing brace belongs to the block
that it closes, and closes nothing when no brace is open. -/
def outlineFrom (limit : Nat) : (depth : Nat) → List Char → List Char
  | _, [] => []
  | depth, c :: rest =>
    if c = '{' then
      if depth + 1 ≤ limit then c :: outlineFrom limit (depth + 1) rest
      else outlineFrom limit (depth + 1) rest
    else if c = '}' then
      if depth ≤ limit then c :: outlineFrom limit (depth - 1) rest
      else outlineFrom limit (depth - 1) rest
    else if depth ≤ limit then c :: outlineFrom limit depth rest
    else outlineFrom limit depth rest

/-- The text at most `limit` braces deep. A text without an opening brace declares nothing, and its
outline is empty. -/
def outline (limit : Nat) (text : List Char) : List Char :=
  if '{' ∈ text then outlineFrom limit 0 text else []

end ClassAtlas.Source
