import ClassAtlas.SourceTree.Glob.Reader
import ClassAtlas.Text.Blank

/-!
# Ignore rules

Each line of an ignore file is a pattern of what to leave out, or to keep in spite of another
pattern. The last pattern of a file that matches decides.
-/

namespace ClassAtlas.SourceTree

/-- What a pattern says about an entry. -/
inductive Verdict
  | leaveOut
  | keep
  deriving DecidableEq, Repr

/-- One pattern. -/
structure Rule where
  glob : List Glob.Piece
  verdict : Verdict
  /-- The pattern is about directories only. -/
  directoriesOnly : Bool

/-- The glob of a pattern. A pattern without a slash may match at any depth, and one that ends in
double stars matches what is inside a directory, not the directory. -/
def globText (anchored : Bool) (pattern : List Char) : List Char :=
  let anywhere := !anchored && !pattern.contains '/' && pattern ≠ ['*', '*']
  let pattern := if anywhere then ['*', '*', '/'] ++ pattern else pattern
  if ['*', '*', '/'].isPrefixOf pattern.reverse then pattern ++ ['/', '*'] else pattern

/-- The line without blanks at its end, unless the last one is escaped. -/
def trimLine (line : List Char) : List Char :=
  match line.reverse with
  | ' ' :: '\\' :: _ => line
  | reversed => (Text.afterBlanks reversed).reverse

/-- The pattern without a slash at its end, and whether there was one. -/
def withoutFinalSlash (pattern : List Char) : List Char × Bool :=
  match pattern.reverse with
  | '/' :: '\\' :: rest => (rest.reverse, true)
  | '/' :: rest => (rest.reverse, true)
  | _ => (pattern, false)

/-- The rule of one line. Blank lines, comments and lines that are no globs give none. -/
def Rule.ofLine? (line : List Char) : Option Rule :=
  match line with
  | '#' :: _ => none
  | _ =>
    let line := trimLine line
    if line.isEmpty then none
    else
      let (verdict, body) : Verdict × List Char := match line with
        | '!' :: body => (.keep, body)
        | '\\' :: '!' :: body => (.leaveOut, '!' :: body)
        | '\\' :: '#' :: body => (.leaveOut, '#' :: body)
        | body => (.leaveOut, body)
      let (anchored, body) := match body with
        | '/' :: body => (true, body)
        | body => (false, body)
      let (body, directoriesOnly) := withoutFinalSlash body
      (Glob.read? (globText anchored body)).map fun glob => ⟨glob, verdict, directoriesOnly⟩

/-- The line without a carriage return at its end. -/
def withoutReturn (line : List UInt8) : List UInt8 :=
  match line.reverse with
  | 0x0D :: rest => rest.reverse
  | _ => line

/-- The lines of a file. A carriage return belongs to the end of a line, but not to the end of the
file. -/
def fileLines (content : ByteArray) : List (List UInt8) :=
  let lines := Text.splitAt (· = 0x0A) content.data.toList
  lines.dropLast.map withoutReturn ++ lines.getLast?.toList

/-- The text of a line, if it is UTF-8. -/
def lineText? (line : List UInt8) : Option String :=
  String.fromUTF8? (ByteArray.mk line.toArray)

/-- The texts of the lines as far as they are UTF-8. -/
def lineTexts : List (List UInt8) → List (List Char)
  | [] => []
  | line :: rest =>
    match lineText? line with
    | none => []
    | some text => text.toList :: lineTexts rest

/-- The lines without byte order marks at the start of the first one. -/
def withoutMarks : List (List Char) → List (List Char)
  | [] => []
  | line :: rest => line.dropWhile (·.toNat = 0xFEFF) :: rest

/-- The rules of an ignore file. One glob that is nested too deep makes the whole file useless. -/
def Rule.ofFile (content : ByteArray) : List Rule :=
  let rules := (withoutMarks (lineTexts (fileLines content))).filterMap Rule.ofLine?
  if rules.any fun rule => Glob.isTooDeep rule.glob then [] else rules

/-- What the rules say about an entry: the last one that matches decides. -/
def verdict? (rules : List Rule) (path : String) (isDirectory : Bool) : Option Verdict :=
  (rules.reverse.find? fun rule =>
    (isDirectory || !rule.directoriesOnly) && Glob.isMatch rule.glob path).map (·.verdict)

end ClassAtlas.SourceTree
