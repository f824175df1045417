/-!
# Blank characters

White space is the Unicode property of that name, a fixed set of twenty-five characters. Zero width
characters such as U+200B and the byte order mark do not belong to it.
-/

namespace ClassAtlas.Text

/-- The character has the Unicode property White_Space. -/
def isBlank (c : Char) : Bool :=
  c = ' ' || (9 ≤ c.toNat && c.toNat ≤ 13) || c.toNat = 0x85 || c.toNat = 0xA0 ||
    c.toNat = 0x1680 || (0x2000 ≤ c.toNat && c.toNat ≤ 0x200A) || c.toNat = 0x2028 ||
    c.toNat = 0x2029 || c.toNat = 0x202F || c.toNat = 0x205F || c.toNat = 0x3000

/-- The text after its leading blanks. -/
def afterBlanks (text : List Char) : List Char :=
  text.dropWhile isBlank

/-- The text after its leading blanks, of which there is at least one. -/
def afterBlankRun? : List Char → Option (List Char)
  | [] => none
  | c :: rest => if isBlank c then some (afterBlanks rest) else none

/-- The text without its leading and trailing blanks. -/
def trim (text : List Char) : List Char :=
  (afterBlanks (afterBlanks text).reverse).reverse

/-- The text consists of blanks only. -/
def isAllBlank (text : List Char) : Bool :=
  text.all isBlank

/-- The pieces of a list between the elements that satisfy `p`. There is always one piece more than
there are such elements. -/
def splitAt {α : Type} (p : α → Bool) : List α → List (List α)
  | [] => [[]]
  | c :: rest =>
    match splitAt p rest with
    | [] => [[c]]
    | piece :: pieces => if p c then [] :: piece :: pieces else (c :: piece) :: pieces

/-- The number of lines that hold something other than blanks. Lines end at a line feed. -/
def nonBlankLines (text : List Char) : Nat :=
  (splitAt (· = '\n') text).countP fun line => !isAllBlank line

end ClassAtlas.Text
