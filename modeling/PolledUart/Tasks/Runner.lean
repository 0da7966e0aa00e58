import PolledUart.Tasks.Capture
import PolledUart.Tasks.Examples
import PolledUart.Tasks.Expected
import PolledUart.Text.Escape

/-!
# Running examples

`runExample` runs one example of a test and judges or blesses its console, `runTests` does
so for all selected ones in turn, whatever becomes of each unless it is fatal, and `perform`
carries out a whole command.
-/

namespace PolledUart.Tasks

/-! ### What is printed about it -/

/-- Lines under a heading. -/
def underHeading (heading : String) (lines : List String) : String :=
  String.join ((("--- " ++ heading ++ " ---") :: lines).map (· ++ "\n"))

/-- The log from a severity on. -/
def Capture.logFrom (capture : Capture) (least : Log.Severity) : List String :=
  (Log.select least capture.log).map (·.render)

/-- Everything that a run shows. -/
def Capture.show (capture : Capture) : String :=
  underHeading "console" [Text.escape capture.text]
    ++ underHeading "driver log" (capture.logFrom .print)
    ++ "--- QEMU run end ---\n"

/-- What is printed about the verdict on an example. -/
def Verdict.show (name : String) (capture : Capture) : Verdict → String
  | .passed => "  PASS\n"
  | .blessed change => s!"  {name}.expected: {change.label}\n"
  | .missing =>
    "  No expected output file, run with --bless to create\n"
      ++ underHeading "console" [Text.escape capture.text]
  | .differs expected =>
    "  FAIL: console output differs from expected\n"
      ++ underHeading "expected" [Text.escape expected]
      ++ underHeading "console" [Text.escape capture.text]
      ++ underHeading "driver log (debug and above)" (capture.logFrom .debug)

/-! ### Tests -/

/-- Judges or blesses the console of an example. -/
def settle (blessing : Bool) (name : String) (console : String) : Task Verdict := do
  let progress ← get
  if blessing then
    let (change, tree) := bless progress.tree name console
    set { progress with tree := tree }
    match change with
    | .ok change => return .blessed change
    | .error cause => throw (.expectedFile cause)
  else
    match judge progress.tree name console with
    | .ok verdict => return verdict
    | .error cause => throw (.expectedFile cause)

/-- Runs an example of a test. -/
def runExample (workspace : Workspace) (tools : Toolchain) (blessing : Bool) (name : String) :
    Task Verdict := do
  let capture ← capture workspace tools ⟨name, false⟩
  let verdict ← settle blessing name capture.text
  modify (·.say (verdict.show name capture))
  return verdict

/-- What became of an example. -/
abbrev Result := Except Failure Verdict

/-- Whether an example counts as passed. -/
def accepted : Result → Bool
  | .ok verdict => verdict.accepted
  | .error _ => false

/-- Whether nothing can follow an example. -/
def isFatal : Result → Bool
  | .ok _ => false
  | .error failure => failure.isFatal

/-- What is printed about an example that failed. -/
def Result.report (workspace : Workspace) : Result → String
  | .ok _ => ""
  | .error failure => s!"  ERROR: {failure.message workspace}\n"

/-- Runs the examples one after the other, whatever becomes of each, up to one that is fatal. -/
def runTests (workspace : Workspace) (tools : Toolchain) (blessing : Bool) :
    List String → StateM Progress (List (String × Result))
  | [] => return []
  | name :: rest => do
    modify (·.say s!"\n=== Test: {name} ===\n")
    let result ← (runExample workspace tools blessing name).run
    if isFatal result then return [(name, result)]
    modify (·.say (Result.report workspace result))
    return (name, result) :: (← runTests workspace tools blessing rest)

/-! ### Commands -/

/-- What the runner can be asked to do. -/
inductive Command where
  /-- Run an example and show what it does. -/
  | emulate (job : Job)
  /-- Run the examples that contain a text, or all, and judge or bless them. -/
  | test (filter : Option String) (blessing : Bool)
deriving Repr, DecidableEq

/-- How a command ended. -/
structure Outcome where
  /-- What became of each example of a test. -/
  results : List (String × Result)
  /-- Why the command failed, if it did. -/
  failure : Option Failure
  /-- How far it got. -/
  progress : Progress

/-- The status that a command ends with. -/
def Outcome.exitCode (outcome : Outcome) : Nat :=
  match outcome.failure with
  | none => 0
  | some failure => if failure.isFatal then 101 else 1

/-- Everything that a command printed as errors. What is fatal is not worded. -/
def Outcome.errors (outcome : Outcome) (workspace : Workspace) : List UInt8 :=
  outcome.progress.errors ++ match outcome.failure with
    | some failure => if failure.isFatal then [] else Text.encode (failure.report workspace)
    | none => []

/-- Runs an example and shows what it does. -/
def performEmulate (workspace : Workspace) (tools : Toolchain) (job : Job) (start : Progress) :
    Outcome :=
  match (capture workspace tools job).run start with
  | (.ok capture, progress) => ⟨[], none, progress.say capture.show⟩
  | (.error failure, progress) => ⟨[], some failure, progress⟩

/-- Runs the selected examples and sums up. -/
def performTest (workspace : Workspace) (tools : Toolchain) (filter : Option String)
    (blessing : Bool) (start : Progress) : Outcome :=
  match selected start.tree filter with
  | .error failure => ⟨[], some failure, start⟩
  | .ok [] => ⟨[], some .noTests, start⟩
  | .ok names =>
    let (results, progress) := (runTests workspace tools blessing names).run start
    if results.any (isFatal ·.2) then ⟨results, some .breakdown, progress⟩ else
    let passed := results.countP (accepted ·.2)
    let failed := results.countP (!accepted ·.2)
    { results := results
      failure := if failed = 0 then none else some (.testsFailed failed)
      progress := progress.say s!"\n=== Summary ===\n{passed} passed, {failed} failed\n" }

/-- Carries out a command on a project. -/
def perform (workspace : Workspace) (tools : Toolchain) (tree : Tree) (command : Command) :
    Outcome :=
  let start : Progress := ⟨tree, [], [], []⟩
  match command with
  | .emulate job => performEmulate workspace tools job start
  | .test filter blessing => performTest workspace tools filter blessing start

end PolledUart.Tasks
