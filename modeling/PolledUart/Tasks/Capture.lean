import PolledUart.Tasks.Failure

/-!
# One run of an example

An example is built, run in the emulator, and its log is decoded by the table in its image.
`capture` does all of it and gives what a complete run shows; it fails at the first stage
that fails.

* `decodeLog_eq_ok_iff` — which logs can be decoded.
-/

namespace PolledUart.Tasks

/-- How far a command has got. -/
structure Progress where
  /-- The files of the project. -/
  tree : Tree
  /-- The tools that were started, in order. -/
  calls : List Call
  /-- What was printed, by the command and by the build tool. -/
  output : List UInt8
  /-- What was printed as errors. -/
  errors : List UInt8

/-- A step of a command: it may fail, and what it did until then remains. -/
abbrev Task := ExceptT Failure (StateM Progress)

/-- Prints a text. -/
def Progress.say (progress : Progress) (text : String) : Progress :=
  { progress with output := progress.output ++ Text.encode text }

/-! ### One example -/

/-- The tree with an image at its place; where there is no place for it, the tree as it was. -/
def install (home : Path) (tree : Tree) (route : Route) (image : File) : Tree :=
  match tree.writeRoute home route image with
  | .ok installed => installed
  | .error _ => tree

/-- What a run of the build tool leaves behind, for a project in a directory. -/
def Progress.afterBuild (progress : Progress) (home : Path) (job : Job) (run : BuildRun) :
    Progress :=
  { tree := match run.image with
      | some image => install home progress.tree (builtImage job.buildArguments) image
      | none => progress.tree
    calls := progress.calls ++ [.build job]
    output := progress.output ++ run.output
    errors := progress.errors ++ run.errors }

/-- What a run of the emulator leaves behind. -/
def Progress.afterEmulation (progress : Progress) (job : Job) : Progress :=
  { progress with calls := progress.calls ++ [.emulate job] }

/-- Builds an example. The build tool is started in the directory of the test suite. -/
def build (workspace : Workspace) (tools : Toolchain) (job : Job) : Task Unit := do
  let progress ← get
  match progress.tree.list testsuite *> tools.build progress.calls job with
  | .error cause => throw (.buildNotStarted cause)
  | .ok run =>
    set (progress.afterBuild (tools.home workspace) job run)
    unless run.exit = some 0 do throw (.buildFailed job.name)

/-- Runs an example, with a file for its console. -/
def emulate (tools : Toolchain) (job : Job) : Task EmulatorRun := do
  let progress ← get
  match tools.makeConsole progress.calls job with
  | .error cause => throw (.consoleNotMade cause)
  | .ok () =>
    match tools.emulate progress.calls job with
    | .error cause => throw (.emulatorNotStarted cause)
    | .ok run =>
      set (progress.afterEmulation job)
      unless run.exit = some 0 do
        throw (.emulatorFailed run.exit (Text.decodeLossy run.errors))
      return run

/-- The line that shows a frame. -/
def LogReader.line (reader : LogReader) (frame : Log.Frame) : Log.Line :=
  ⟨.ofLevel frame.level, reader.place? frame.index, frame.message⟩

/-- The lines of a log, which may end in the middle of a frame. -/
def LogReader.lines (reader : LogReader) (log : List UInt8) : Except Failure (List Log.Line) :=
  let reading := reader.read log
  match reading.ending with
  | .short => .ok (reading.frames.map reader.line)
  | .malformed => .error .malformedLog
  | .breakdown => .error .breakdown

theorem LogReader.lines_eq_ok_iff {reader : LogReader} {log : List UInt8} {lines : List Log.Line} :
    reader.lines log = .ok lines ↔
      (reader.read log).ending = .short ∧ (reader.read log).frames.map reader.line = lines := by
  unfold LogReader.lines
  dsimp only
  cases (reader.read log).ending <;> simp

/-- Decodes the log of a job by the table in its image. -/
def decodeLog (workspace : Workspace) (tools : Toolchain) (progress : Progress) (job : Job)
    (log : List UInt8) : Except Failure (List Log.Line) :=
  match progress.tree.readRoute (tools.surroundings workspace progress.calls) job.image with
  | .error cause => .error (.unreadableImage cause)
  | .ok image =>
    match tools.readTable image.bytes with
    | .error cause => .error (.unreadableTable cause)
    | .ok none => .error .noTable
    | .ok (some reader) => reader.lines log

/-- **A log is decoded** exactly if the image and the table in it can be read, and the log ends
for want of bytes, not at a frame that is malformed. -/
theorem decodeLog_eq_ok_iff {workspace : Workspace} {tools : Toolchain} {progress : Progress}
    {job : Job} {log : List UInt8} {lines : List Log.Line} :
    decodeLog workspace tools progress job log = .ok lines ↔ ∃ image reader,
      progress.tree.readRoute (tools.surroundings workspace progress.calls) job.image = .ok image ∧
        tools.readTable image.bytes = .ok (some reader) ∧
        (reader.read log).ending = .short ∧
        (reader.read log).frames.map reader.line = lines := by
  unfold decodeLog
  cases progress.tree.readRoute (tools.surroundings workspace progress.calls) job.image with
  | error cause => simp
  | ok image =>
    rcases htable : tools.readTable image.bytes with cause | _ | reader <;>
      simp [htable, LogReader.lines_eq_ok_iff]

/-- What a complete run shows. -/
structure Capture where
  /-- What the console received. -/
  console : List UInt8
  /-- The log. -/
  log : List Log.Line
deriving Repr, DecidableEq

/-- The console, read as text. -/
def Capture.text (capture : Capture) : String :=
  Text.decodeLossy capture.console

/-- Builds and runs an example and decodes its log. -/
def capture (workspace : Workspace) (tools : Toolchain) (job : Job) : Task Capture := do
  modify (·.say s!"Building '{job.name}'...\n")
  build workspace tools job
  modify (·.say "Running in QEMU...\n")
  let run ← emulate tools job
  match decodeLog workspace tools (← get) job run.log with
  | .error failure => throw failure
  | .ok log => return ⟨run.console.getD [], log⟩

end PolledUart.Tasks
