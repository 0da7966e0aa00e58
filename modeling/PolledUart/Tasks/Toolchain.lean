import PolledUart.Log.Line
import PolledUart.Tasks.Route

/-!
# The tools of a run

An example is built by one tool and run by another, the emulator, which sends what it receives
from the console to a file that is made for it, and its log is read by a decoder. What the tools
and the system around them do is a function of the calls that were made before and of the job,
so that tools with a memory, or with moods, are covered too. A tool touches the tree in one place
only: the build tool may put an image there (`builtImage`).
-/

namespace PolledUart.Tasks

/-- One example to build and run. -/
structure Job where
  /-- Its name. -/
  name : String
  /-- Whether it is built for release. -/
  release : Bool
deriving Repr, DecidableEq

/-- The processor that examples are built for. -/
def target : String := "thumbv7m-none-eabi"

/-- The name of a build profile. -/
def profile (release : Bool) : String :=
  if release then "release" else "debug"

/-- Where the image of a job is looked for. -/
def Job.image (job : Job) : Route :=
  ⟨["target", target, profile job.release, "examples"], job.name⟩

/-! ### Calls -/

/-- The start of a tool. -/
inductive Call where
  /-- The build tool builds an example. -/
  | build (job : Job)
  /-- The emulator runs the image of an example. -/
  | emulate (job : Job)
deriving Repr, DecidableEq

/-- Where a run takes place: the directory of the project, and the file that receives what
the emulated console sends. -/
structure Workspace where
  /-- The directory of the project. -/
  root : String
  /-- The file of the console. -/
  consoleFile : String
deriving Repr, DecidableEq

/-- The project that a package belongs to: packages named `xtask` lie in its directory. -/
def projectRoot (package : String) : String :=
  match (package.toList.splitOn '/').reverse with
  | [['x', 't', 'a', 's', 'k'], []] => "/"
  | ['x', 't', 'a', 's', 'k'] :: above => String.ofList (['/'].intercalate above.reverse)
  | _ => package

/-- The directory of the project, from the top of all files; it may be named from another one. -/
def Workspace.home (workspace : Workspace) (current : Path) : Path :=
  (stepsOf workspace.root).foldl advance (if startsAtTop workspace.root then [] else current)

/-- The directory of the test suite. -/
def testsuite : Path := ["testsuite"]

/-- The text of a path of the project. -/
def Workspace.text (workspace : Workspace) (path : Path) : String :=
  let root := workspace.root
  let joint := if root = "" ∨ root.toList.getLast? = some '/' then "" else "/"
  root ++ joint ++ "/".intercalate path

/-- The text of a route. -/
def Workspace.routeText (workspace : Workspace) (route : Route) : String :=
  if route.isAbsolute then route.text else workspace.text (route.start ++ [route.text])

/-- A command as it is started. -/
structure ToolCommand where
  /-- The tool. -/
  tool : String
  /-- Its arguments. -/
  arguments : List String
  /-- The directory it is started in, if that is not the current one. -/
  directory : Option String
  /-- The variables that are set for it. -/
  environment : List (String × String)
deriving Repr, DecidableEq

/-- The arguments for the build tool. -/
def Job.buildArguments (job : Job) : List String :=
  ["build", "--example", job.name, "--target", target]
    ++ if job.release then ["--release"] else []

/-- The command of a call. -/
def Call.command (workspace : Workspace) : Call → ToolCommand
  | .build job =>
    { tool := "cargo"
      arguments := job.buildArguments
      directory := some (workspace.text testsuite)
      environment := [("DEFMT_LOG", "trace")] }
  | .emulate job =>
    { tool := "qemu-system-arm"
      arguments := ["-cpu", "cortex-m3", "-machine", "lm3s6965evb", "-nographic",
        "-monitor", "none", "-semihosting-config", "enable=on,target=native",
        "-serial", "file:" ++ workspace.consoleFile, "-kernel", workspace.routeText job.image]
      directory := none
      environment := [] }

/-! ### The place of an image -/

/-- The argument behind the first occurrence of an option. -/
def optionValue? (option : String) : List String → Option String
  | [] => none
  | [_] => none
  | argument :: value :: rest =>
    if argument = option then some value else optionValue? option (value :: rest)

/-- Where the build tool puts the image that it is asked for by its arguments. It finds its
options wherever they stand. -/
def builtImage (arguments : List String) : Route :=
  ⟨["target", (optionValue? "--target" arguments).getD "",
    profile (decide ("--release" ∈ arguments)), "examples"],
    (optionValue? "--example" arguments).getD ""⟩

/-- An image is built where it is looked for, unless the example's name reads as an option. -/
theorem builtImage_buildArguments {job : Job} (hr : job.name ≠ "--release")
    (ht : job.name ≠ "--target") : builtImage job.buildArguments = job.image := by
  obtain ⟨name, release⟩ := job
  cases release <;>
    simp_all [builtImage, Job.buildArguments, Job.image, optionValue?, target, Ne.symm hr]

/-! ### What tools do -/

/-- The status that a tool ends with; a tool that is killed has none. -/
abbrev ExitStatus := Option Nat

/-- The status of a tool that ends with a code, of which the lowest byte is told. -/
def ExitStatus.ofCode (code : Int) : ExitStatus :=
  some (code % 256).toNat

/-- What a run of the build tool leaves. -/
structure BuildRun where
  /-- How it ended. -/
  exit : ExitStatus
  /-- What it printed. -/
  output : List UInt8
  /-- What it printed as errors. -/
  errors : List UInt8
  /-- The image that it made, if any. -/
  image : Option File
deriving Repr, DecidableEq

/-- What a run of the emulator leaves. -/
structure EmulatorRun where
  /-- How it ended. -/
  exit : ExitStatus
  /-- What the console received, if its file can be read. -/
  console : Option (List UInt8)
  /-- The log. -/
  log : List UInt8
  /-- What it printed as errors. -/
  errors : List UInt8
deriving Repr, DecidableEq

/-- How the logs of an image are read. -/
structure LogReader where
  /-- Where the statement of a number stands in the source, if that is known. -/
  place? : Nat → Option Log.Location
  /-- What is read from a log. -/
  read : List UInt8 → Log.Reading

/-- How the tools, the decoder and the system behave that a run depends on. A tool that cannot be
started gives an error. -/
structure Toolchain where
  /-- The build tool, after some calls, on a job. -/
  build : List Call → Job → Except FileError BuildRun
  /-- The making of the file for the console, after some calls, for a job. An error is worded. -/
  makeConsole : List Call → Job → Except String Unit
  /-- The emulator, after some calls, on a job. -/
  emulate : List Call → Job → Except FileError EmulatorRun
  /-- The decoder, on the bytes of an image, which may have no log statements. An error is
  worded. -/
  readTable : List UInt8 → Except String (Option LogReader)
  /-- The directory where the program is started, from the top of all files. -/
  current : Path
  /-- The files outside of the project, after some calls. -/
  elsewhere : List Call → Tree

/-- Tools whose behaviour does not hang on what was called before. -/
def Toolchain.Steady (tools : Toolchain) : Prop :=
  ∀ before before' job, tools.build before job = tools.build before' job ∧
    tools.makeConsole before job = tools.makeConsole before' job ∧
    tools.emulate before job = tools.emulate before' job

/-- The directory of the project, from the top of all files. -/
def Toolchain.home (tools : Toolchain) (workspace : Workspace) : Path :=
  workspace.home tools.current

/-- What is around the files of the project, after some calls. -/
def Toolchain.surroundings (tools : Toolchain) (workspace : Workspace) (before : List Call) :
    Surroundings :=
  ⟨tools.home workspace, tools.elsewhere before⟩

end PolledUart.Tasks
