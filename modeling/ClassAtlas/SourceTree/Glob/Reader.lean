import ClassAtlas.SourceTree.Glob

/-!
# Reading globs

A backslash takes the meaning of the character after it. Braces hold branches, which are separated
by commas. A bracket that is never closed stands for itself, and so do all brackets after it.
-/

namespace ClassAtlas.SourceTree.Glob

/-- The ranges of bytes of a range of characters. -/
def byteRanges (low high : Char) : List (UInt8 × UInt8) :=
  let single := (bytesOf low).map fun b => (b, b)
  if low = high then single
  else
    match (bytesOf low).getLast?, bytesOf high with
    | some last, first :: others =>
      single.dropLast ++ (last, first) :: others.map fun b => (b, b)
    | _, _ => []

/-- What has been read of a set of characters: its ranges, the last one first, whether a dash waits
for the end of its range, and whether nothing has been read. -/
structure SetReading where
  ranges : List (Char × Char) := []
  inRange : Bool := false
  first : Bool := true

/-- Read one more character of a set. A range must not run backwards. -/
def SetReading.next (r : SetReading) (c : Char) : Option SetReading :=
  if c = '-' ∧ !r.first ∧ !r.inRange then some { r with inRange := true }
  else if r.inRange then
    match r.ranges with
    | (low, _) :: ranges => if c < low then none else some ⟨(low, c) :: ranges, false, false⟩
    | [] => none
  else some ⟨(c, c) :: r.ranges, false, false⟩

/-- The ranges that have been read. A dash at the end stands for itself. -/
def SetReading.finish (r : SetReading) : List (UInt8 × UInt8) :=
  let ranges := if r.inRange then ('-', '-') :: r.ranges else r.ranges
  ranges.reverse.flatMap fun (low, high) => byteRanges low high

/-- How a set of characters ends: well, without its closing bracket, or with a range that runs
backwards. -/
inductive SetResult
  | closed (ranges : List (UInt8 × UInt8)) (rest : List Char)
  | unclosed
  | wrong

/-- The rest of a set up to its closing bracket, which stands for itself at the start. -/
def setRest (r : SetReading) : List Char → SetResult
  | [] => .unclosed
  | c :: rest =>
    if c = ']' ∧ !r.first then .closed r.finish rest
    else
      match r.next c with
      | none => .wrong
      | some r => setRest r rest

/-- What has been read of a glob: the pieces around each open branch with the branches before it,
and the pieces read last, all in reverse. -/
structure Reading where
  around : List (List Piece × List (List Piece)) := []
  pieces : List Piece := []
  /-- A bracket was not closed. -/
  unclosed : Bool := false

/-- Add a piece. -/
def Reading.push (r : Reading) (piece : Piece) : Reading :=
  { r with pieces := piece :: r.pieces }

/-- Two stars that do not stand between slashes. -/
def Reading.pushStars (r : Reading) : Reading :=
  (r.push .anyBytes).push .anyBytes

/-- Two stars at the start of a glob or branch, given the text after them. -/
def Reading.starsAtStart (r : Reading) : List Char → Reading × List Char
  | [] => (r.push .anyStart, [])
  | '/' :: rest => (r.push .anyStart, rest)
  | rest => (r.pushStars, rest)

/-- Put any components in place of the slash before two stars. A run of double stars counts once. -/
def Reading.replaceSlash (r : Reading) (piece : Piece) : Reading :=
  match r.pieces with
  | .anyStart :: _ => r
  | .anyEnd :: _ => r
  | _ :: pieces => { r with pieces := piece :: pieces }
  | [] => r

/-- Two stars after other pieces, given the character before them and the text after them. -/
def Reading.starsInside (r : Reading) (before : Option Char) (rest : List Char) :
    Reading × List Char :=
  let between := before = some '/' ∨ (!r.around.isEmpty ∧ (before = some ',' ∨ before = some '{'))
  if !between then (r.pushStars, rest)
  else
    match rest with
    | [] => (r.replaceSlash .anyEnd, [])
    | c :: more =>
      if c = '/' then (r.replaceSlash .anyMiddle, more)
      else if (c = ',' ∨ c = '}') ∧ !r.around.isEmpty then (r.replaceSlash .anyEnd, rest)
      else (r.pushStars, rest)

/-- Two stars. -/
def Reading.stars (r : Reading) (before : Option Char) (rest : List Char) : Reading × List Char :=
  if r.pieces.isEmpty then r.starsAtStart rest else r.starsInside before rest

/-- The pieces of a glob from here on, given the character before, in at most `bound` steps. A glob
with braces that do not match, a range that runs backwards or a backslash at its end has no
reading. -/
def readFrom : (bound : Nat) → Reading → (before : Option Char) → List Char → Option (List Piece)
  | _, r, _, [] => if r.around.isEmpty then some r.pieces.reverse else none
  | 0, _, _, _ => none
  | bound + 1, r, before, c :: rest =>
    if c = '?' then readFrom bound (r.push .anyByte) (some c) rest
    else if c = '*' then
      match rest with
      | '*' :: rest =>
        let (next, after) := r.stars before rest
        readFrom bound next (if after.length < rest.length then some '/' else some '*') after
      | _ => readFrom bound (r.push .anyBytes) (some c) rest
    else if c = '[' ∧ !r.unclosed then
      let (negated, body) := match rest with
        | '!' :: body => (true, body)
        | '^' :: body => (true, body)
        | body => (false, body)
      match setRest {} body with
      | .closed ranges after => readFrom bound (r.push (.oneOf negated ranges)) (some ']') after
      | .unclosed => readFrom bound { r.push (.literal c) with unclosed := true } (some c) rest
      | .wrong => none
    else if c = '{' then
      readFrom bound { r with around := (r.pieces, []) :: r.around, pieces := [] } (some c) rest
    else if c = '}' then
      match r.around with
      | [] => none
      | (pieces, branches) :: around =>
        let all := (r.pieces.reverse :: branches).reverse
        readFrom bound { r with around, pieces := .oneBranch all :: pieces } (some c) rest
    else if c = ',' ∧ !r.around.isEmpty then
      match r.around with
      | [] => none
      | (pieces, branches) :: around =>
        let around := (pieces, r.pieces.reverse :: branches) :: around
        readFrom bound { r with around, pieces := [] } (some c) rest
    else if c = '\\' then
      match rest with
      | [] => none
      | d :: rest => readFrom bound (r.push (.literal d)) (some d) rest
    else readFrom bound (r.push (.literal c)) (some c) rest

/-- The pieces of a glob. Every step takes at least one character. -/
def read? (text : List Char) : Option (List Piece) :=
  readFrom text.length {} none text

end ClassAtlas.SourceTree.Glob
