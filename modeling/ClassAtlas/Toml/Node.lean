/-!
# TOML documents

A document is a tree of tables. A table that is written out once cannot be written out again, so
every table remembers how it came about.
-/

namespace ClassAtlas.Toml

/-- How a table came about. -/
inductive Origin
  /-- By its own header. -/
  | header
  /-- As a table on the way to the table of some header. -/
  | implied
  /-- By a dotted key. -/
  | dotted
  /-- As a value in braces, which is complete. -/
  | closed
  deriving DecidableEq, Repr

/-- A value, a table, or a list of tables that were each given a header. -/
inductive Node
  | text (value : String)
  | integer (value : Int)
  | real
  | boolean (value : Bool)
  /-- A date, a time, or both. -/
  | moment
  | array (items : List Node)
  | table (origin : Origin) (entries : List (String × Node))
  | tables (items : List (List (String × Node)))

/-- The keys of a table with their nodes, in the order in which they were given. -/
abbrev Entries := List (String × Node)

/-- The node of a key. -/
def Entries.get? (entries : Entries) (key : String) : Option Node :=
  (entries.find? (·.1 = key)).map (·.2)

/-- Give a key a new node that is computed from the old one, if it had one. -/
def Entries.alter (key : String) (change : Option Node → Option Node) : Entries → Option Entries
  | [] => (change none).map fun node => [(key, node)]
  | (other, node) :: rest =>
    if other = key then (change (some node)).map fun node => (other, node) :: rest
    else (Entries.alter key change rest).map fun rest => (other, node) :: rest

/-- Change the last element of a list, which must have one. -/
def changeLast? {α : Type} (change : α → Option α) : List α → Option (List α)
  | [] => none
  | [last] => (change last).map fun last => [last]
  | first :: rest => (changeLast? change rest).map fun rest => first :: rest

/-- Change the table that a path of keys leads to. Tables on the way are made when they are missing.
A path leads through the last of several tables, never through a value or a closed table, and a
dotted key never through a table with a header of its own. -/
def changeAt (dotted : Bool) (change : Origin → Entries → Option Entries) :
    List String → Origin → Entries → Option Entries
  | [], origin, entries => change origin entries
  | key :: rest, _, entries =>
    entries.alter key fun
      | none =>
        let origin := if dotted then Origin.dotted else .implied
        (changeAt dotted change rest origin []).map (.table origin)
      | some (.table origin inner) =>
        if origin = .closed ∨ (dotted ∧ origin = .header) then none
        else (changeAt dotted change rest origin inner).map (.table origin)
      | some (.tables items) =>
        (changeLast? (changeAt dotted change rest .header) items).map .tables
      | some _ => none

/-- Give a key its value. A key has only one value, and a dotted key ends in a table made by dotted
keys. -/
def assign (path : List String) (key : String) (value : Node) (origin : Origin)
    (entries : Entries) :
    Option Entries :=
  changeAt true (fun origin entries =>
    if path.isEmpty = (origin = .dotted) then none
    else entries.alter key fun
      | none => some value
      | some _ => none) path origin entries

/-- Give the table at a path its header. It must be missing or implied by another header. -/
def openTable (path : List String) (key : String) (root : Entries) : Option Entries :=
  changeAt false (fun _ entries => entries.alter key fun
    | none => some (.table .header [])
    | some (.table .implied inner) => some (.table .header inner)
    | some _ => none) path .header root

/-- Add a table to the list of tables at a path. -/
def appendTable (path : List String) (key : String) (root : Entries) : Option Entries :=
  changeAt false (fun _ entries => entries.alter key fun
    | none => some (.tables [[]])
    | some (.tables items) => some (.tables (items ++ [[]]))
    | some _ => none) path .header root

end ClassAtlas.Toml
