import ClassAtlas.Program
import ClassAtlas.SourceTree.Listing

/-!
# The command

The command is given the files that it works on as a listing on standard input. It only reads and
prints; all it decides is decided by the program.
-/

namespace ClassAtlas.Command

/-- A line without its end. -/
def withoutEnd (line : String) : String :=
  String.ofList (line.toList.filter (· ≠ '\n'))

/-- The lines that are still to be read. -/
partial def readLines (input : IO.FS.Stream) (lines : List String) : IO (List String) := do
  let line ← input.getLine
  if line.isEmpty then return lines.reverse
  else readLines input (withoutEnd line :: lines)

/-- The variables of the environment that change settings. -/
def environment : IO Settings.Environment := do
  return ⟨← IO.getEnv Settings.extensionKey, ← IO.getEnv Settings.parallelKey,
    ← IO.getEnv Settings.outlineDepthKey⟩

/-- Print what the program leaves behind. -/
def print (output : Output) : IO UInt32 := do
  IO.print output.stdout
  IO.eprint output.stderr
  return output.exitCode.toUInt32

end ClassAtlas.Command

open ClassAtlas in
/-- Run the program with arguments. -/
def main (arguments : List String) : IO UInt32 := do
  match CommandLine.read arguments with
  | .error refusal => Command.print (Program.explain refusal)
  | .ok options =>
    match SourceTree.ofListing (← Command.readLines (← IO.getStdin) []) with
    | none => Command.print ⟨2, "", "error: the listing on standard input cannot be read\n"⟩
    | some files =>
      Command.print (Program.runWith (Workplace.ofTree files (← Command.environment)) options)
