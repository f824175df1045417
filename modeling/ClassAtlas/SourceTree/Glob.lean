/-!
# Glob patterns

A glob matches whole paths, byte by byte. Single stars and question marks stay inside one component;
double stars between slashes stand for any number of components. Matching keeps one answer for each
suffix of the path, so that it takes one pass over the path for each piece of the glob.
-/

namespace ClassAtlas.SourceTree

/-- A piece of a glob. -/
inductive Glob.Piece
  /-- One character as it is. -/
  | literal (c : Char)
  /-- One byte that is no slash. -/
  | anyByte
  /-- Any bytes that are no slashes. -/
  | anyBytes
  /-- One byte of a set, or of its complement. -/
  | oneOf (negated : Bool) (ranges : List (UInt8 × UInt8))
  /-- Any components at the start of a path. -/
  | anyStart
  /-- Any components at the end of a path, at least one. -/
  | anyEnd
  /-- Any components between two others. -/
  | anyMiddle
  /-- One of several globs. -/
  | oneBranch (branches : List (List Piece))

namespace Glob

/-- The bytes of a character in UTF-8. -/
def bytesOf (c : Char) : List UInt8 :=
  c.toString.toUTF8.data.toList

/-- The byte of a slash. -/
def slash : UInt8 := 0x2F

/-! ## Void pieces -/

mutual

/-- The piece is a choice between branches that are all void, as in a pair of braces with nothing
between them. It stands for nothing. -/
def isVoidPiece : Piece → Bool
  | .oneBranch branches => areVoid branches
  | _ => false

/-- Nothing but void pieces. -/
def isVoid : List Piece → Bool
  | [] => true
  | piece :: pieces => isVoidPiece piece && isVoid pieces

/-- All branches are void. -/
def areVoid : List (List Piece) → Bool
  | [] => true
  | branch :: branches => isVoid branch && areVoid branches

end

/-! ## Matching -/

/-- An answer for each suffix of a path, the whole path first and the empty suffix last. -/
abbrev Answers := List Bool

/-- The answers that only the empty suffix is met by. -/
def atEnd (path : List UInt8) : Answers :=
  path.map (fun _ => false) ++ [true]

/-- The suffixes with one byte of a kind before a suffix that is met. -/
def afterByte (kind : UInt8 → Bool) : List UInt8 → Answers → Answers
  | b :: path, _ :: rest => (kind b && rest.headD false) :: afterByte kind path rest
  | _, _ => [false]

/-- The suffixes with any number of bytes of a kind before a suffix that is met. -/
def afterBytes (kind : UInt8 → Bool) : List UInt8 → Answers → Answers
  | b :: path, met :: rest =>
    let later := afterBytes kind path rest
    (met || (kind b && later.headD false)) :: later
  | _, rest => rest

/-- The suffixes that are met, or that have a slash right before a suffix that is met. -/
def afterComponents (path : List UInt8) (rest : Answers) : Answers :=
  List.zipWith or rest (afterBytes (fun _ => true) path (afterByte (· = slash) path rest))

/-- The byte lies in one of the ranges. -/
def inRanges (ranges : List (UInt8 × UInt8)) (b : UInt8) : Bool :=
  ranges.any fun (low, high) => low ≤ b && b ≤ high

mutual

/-- The suffixes that start with the piece and go on with a suffix that is met. -/
def meetsPiece (path : List UInt8) (rest : Answers) : Piece → Answers
  | .literal c => (bytesOf c).foldr (fun b rest => afterByte (· = b) path rest) rest
  | .anyByte => afterByte (· ≠ slash) path rest
  | .anyBytes => afterBytes (· ≠ slash) path rest
  | .oneOf negated ranges => afterByte (fun b => inRanges ranges b != negated) path rest
  | .anyStart => afterComponents path rest
  | .anyEnd => afterByte (· = slash) path (afterBytes (fun _ => true) path rest)
  | .anyMiddle => afterByte (· = slash) path (afterComponents path rest)
  | .oneBranch branches => if areVoid branches then rest else meetsBranch path rest branches

/-- The suffixes that start with the pieces, one after the other, and go on with a suffix that is
met. -/
def meets (path : List UInt8) (rest : Answers) : List Piece → Answers
  | [] => rest
  | piece :: pieces => meetsPiece path (meets path rest pieces) piece

/-- The suffixes that start with one of the branches that are not void and go on with a suffix that
is met. -/
def meetsBranch (path : List UInt8) (rest : Answers) : List (List Piece) → Answers
  | [] => rest.map fun _ => false
  | branch :: branches =>
    let others := meetsBranch path rest branches
    if isVoid branch then others else List.zipWith or (meets path rest branch) others

end

/-- The glob matches the whole path. A glob of double stars alone matches every path. -/
def isMatch (glob : List Piece) (path : String) : Bool :=
  match glob with
  | [.anyStart] => true
  | _ =>
    let bytes := path.toUTF8.data.toList
    (meets bytes (atEnd bytes) glob).headD false

/-! ## Nesting -/

/-- The number of items that a piece adds to the sequence it stands in. -/
def itemCount : Piece → Nat
  | .literal c => (bytesOf c).length
  | .anyEnd => 2
  | .oneBranch branches => if areVoid branches then 0 else 1
  | _ => 1

/-- One level of nesting for a group of two items or more; a single item needs none. -/
def groupLevel (count : Nat) : Nat :=
  if 1 < count then 1 else 0

mutual

/-- How deep a piece is nested, spelled out in sets, repetitions, sequences and choices, of which
each one counts. Any components before a slash, for instance, are a repetition in a sequence in a
choice in braces. -/
def pieceDepth : Piece → Nat
  | .literal _ => 0
  | .anyByte => 1
  | .anyBytes => 2
  | .oneOf _ ranges => 1 + groupLevel ranges.length
  | .anyStart => 4
  | .anyEnd => 1
  | .anyMiddle => 4
  | .oneBranch branches =>
    if areVoid branches then 0
    else 1 + groupLevel (branches.countP fun branch => !isVoid branch) + branchDepth branches

/-- How deep the deepest of the pieces is nested. -/
def deepest : List Piece → Nat
  | [] => 0
  | piece :: pieces => max (pieceDepth piece) (deepest pieces)

/-- How deep the deepest of the branches is nested. -/
def branchDepth : List (List Piece) → Nat
  | [] => 0
  | branch :: branches =>
    max (groupLevel (branch.map itemCount).sum + deepest branch) (branchDepth branches)

end

/-- How deep a glob may be nested. -/
def depthLimit : Nat := 250

/-- The glob is nested too deep to be used. A glob is always a sequence, since it has a start and an
end. -/
def isTooDeep (glob : List Piece) : Bool :=
  depthLimit < 1 + deepest glob

end Glob

end ClassAtlas.SourceTree
