import ClassAtlas.SourceTree
import ClassAtlas.Text.Hex

/-!
# Listings

A listing is a source tree in one line for each entry. A path alone stands for a directory; a path,
a tab and the bytes of the content in hexadecimal digits stand for a file. Directories on the way to
an entry need no line of their own.
-/

namespace ClassAtlas.SourceTree

/-- The names that a path leads through. -/
def names (path : String) : List String :=
  (components path).filter fun name => name ≠ "" ∧ name ≠ "."

/-- The tree with the entry of one line. An empty line has none. -/
def putLine (tree : SourceTree) (line : String) : Option SourceTree :=
  match Text.splitAt (· = '\t') line.toList with
  | [path] => some (putDirectory (names (String.ofList path)) tree)
  | [path, digits] => do
    let bytes ← Text.hexBytes? digits
    return put (file ⟨bytes.toArray⟩) (names (String.ofList path)) tree
  | _ => none

/-- The tree of a listing, unless a line of it cannot be read. -/
def ofListing (lines : List String) : Option SourceTree :=
  lines.foldlM putLine empty

end ClassAtlas.SourceTree
