import PolledUart.Tasks.CommandLine
import PolledUart.Tasks.Scripted

/-!
# The program

The command line of the task runner. The files of the project are listed on standard input,
one path a line, with a slash behind a directory. No tool is started from here, so a command
that needs one reports that it is missing.
-/

namespace PolledUart.Tasks

/-- A tree with one more listed path; one that has no place is left out. -/
def Tree.withListed (tree : Tree) (line : String) : Tree :=
  let path := Log.pathNames line
  let grown := if line.toList.getLast? = some '/' then tree.makeDirectories path
    else tree.makeDirectories path.dropLast >>= (·.write path ⟨[], none⟩)
  match grown with
  | .ok grown => grown
  | .error _ => tree

/-- Reads the list of the project's files. -/
partial def readTree (input : IO.FS.Stream) (tree : Tree) : IO Tree := do
  let line ← input.getLine
  if line.isEmpty then return tree
  readTree input (tree.withListed (String.ofList (line.toList.filter (· ≠ '\n'))))

end PolledUart.Tasks

open PolledUart PolledUart.Tasks in
/-- Runs the task runner on the listed files. -/
def main (arguments : List String) : IO UInt32 := do
  let here := (← IO.getEnv "PWD").getD "/"
  let package := (← IO.getEnv "CARGO_MANIFEST_DIR").getD here
  let tree ← match Invocation.parse arguments with
    | .run _ => readTree (← IO.getStdin) (.directory [])
    | _ => pure (.directory [])
  let workspace : Workspace := ⟨projectRoot package, "console"⟩
  let tools := { ({ scenes := [] } : Script).tools with current := Log.pathNames here }
  let exit := runProgram workspace tools tree arguments
  (← IO.getStdout).write ⟨exit.output.toArray⟩
  (← IO.getStderr).write ⟨exit.errors.toArray⟩
  return UInt32.ofNat exit.code
