import PolledUart.Tasks.Failure

/-!
# Expected console output

What the console of an example should show is kept in a file of the project. `judge`
compares a console with it, and `bless` makes the file show what the console shows.
-/

namespace PolledUart.Tasks

/-- What blessing did to an expected file. -/
inductive Change where
  /-- There was none, and now there is. -/
  | created
  /-- It held something else. -/
  | updated
  /-- It held the same. -/
  | unchanged
deriving Repr, DecidableEq

/-- The word for a change. -/
def Change.label : Change → String
  | .created => "Created"
  | .updated => "Updated"
  | .unchanged => "No change"

/-- What became of an example whose run is complete. -/
inductive Verdict where
  /-- The console shows what is expected. -/
  | passed
  /-- Something else is expected. -/
  | differs (expected : String)
  /-- Nothing is known about what is expected. -/
  | missing
  /-- What the console shows is expected from now on. -/
  | blessed (change : Change)
deriving Repr, DecidableEq

/-- Whether an example counts as passed. -/
def Verdict.accepted : Verdict → Bool
  | .passed => true
  | .blessed _ => true
  | .differs _ => false
  | .missing => false

/-- The directory of the expected files. -/
def expectedDirectory : Path := testsuite ++ ["expected"]

/-- The expected file of an example. -/
def expectedPath (name : String) : Path :=
  expectedDirectory ++ [name ++ ".expected"]

/-- Compares a console with what is expected of the example. -/
def judge (tree : Tree) (name : String) (console : String) : Except FileError Verdict :=
  if tree.contains (expectedPath name) then do
    let expected ← tree.readText (expectedPath name)
    return if expected = console then .passed else .differs expected
  else
    return .missing

/-- Writes what is expected of an example. -/
def writeExpected (tree : Tree) (name : String) (console : String) (change : Change) :
    Except FileError Change × Tree :=
  match tree.write (expectedPath name) (.ofText console) with
  | .ok written => (.ok change, written)
  | .error e => (.error e, tree)

/-- Makes a console what is expected of the example. -/
def bless (tree : Tree) (name : String) (console : String) : Except FileError Change × Tree :=
  if tree.contains (expectedPath name) then
    match tree.readText (expectedPath name) with
    | .error e => (.error e, tree)
    | .ok old =>
      if old = console then (.ok .unchanged, tree) else writeExpected tree name console .updated
  else
    match tree.makeDirectories expectedDirectory with
    | .error e => (.error e, tree)
    | .ok grown => writeExpected grown name console .created

end PolledUart.Tasks
