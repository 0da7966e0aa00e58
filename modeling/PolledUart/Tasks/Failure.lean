import PolledUart.Tasks.Toolchain

/-!
# Failures of a task

A task that fails does so for one of the reasons of `Failure`. The report of a failure has
its message and, where something else is to blame, the cause, indented. One of the reasons is
fatal: the program ends at once, whatever else there is to do.
-/

namespace PolledUart.Tasks

/-- Why a task fails. -/
inductive Failure where
  /-- The examples cannot be listed. -/
  | unreadableExamples (cause : FileError)
  /-- No example is selected. -/
  | noTests
  /-- So many of the selected examples failed. -/
  | testsFailed (count : Nat)
  /-- The build tool cannot be started. -/
  | buildNotStarted (cause : FileError)
  /-- The build tool did not end well. -/
  | buildFailed (name : String)
  /-- The file for the console cannot be made. -/
  | consoleNotMade (cause : String)
  /-- The emulator cannot be started. -/
  | emulatorNotStarted (cause : FileError)
  /-- The emulator did not end well. -/
  | emulatorFailed (exit : ExitStatus) (errors : String)
  /-- The image cannot be read. -/
  | unreadableImage (cause : FileError)
  /-- The table of log statements cannot be read. -/
  | unreadableTable (cause : String)
  /-- The image has no log statements. -/
  | noTable
  /-- The log cannot be decoded. -/
  | malformedLog
  /-- The log asks for what cannot be done. -/
  | breakdown
  /-- The expected file cannot be used. -/
  | expectedFile (cause : FileError)
deriving Repr, DecidableEq

/-- Whether the program ends at once. -/
def Failure.isFatal : Failure → Bool
  | .breakdown => true
  | _ => false

/-- How an exit status is shown. -/
def showExit : ExitStatus → String
  | some code => "Some(" ++ toString code ++ ")"
  | none => "None"

/-- The message of a failure. -/
def Failure.message (workspace : Workspace) : Failure → String
  | .unreadableExamples _ => "Failed to read " ++ workspace.text (testsuite ++ ["examples"])
  | .noTests => "No tests found"
  | .testsFailed count => toString count ++ " test(s) failed"
  | .buildNotStarted _ => "Failed to run cargo build"
  | .buildFailed name => "building example '" ++ name ++ "' failed"
  | .consoleNotMade _ => "Failed to create temp file for UART0"
  | .emulatorNotStarted _ => "Failed to run QEMU"
  | .emulatorFailed exit errors => "QEMU exited with error: " ++ showExit exit ++ "\n" ++ errors
  | .unreadableImage _ => "Failed to read ELF file"
  | .unreadableTable _ => "Failed to parse defmt table from ELF"
  | .noTable => "No defmt data found in ELF"
  | .malformedLog => "Malformed defmt frame"
  | .breakdown => "The log cannot be shown"
  | .expectedFile cause => cause.message

/-- What is to blame for a failure, besides what its message says. -/
def Failure.cause? : Failure → Option String
  | .unreadableExamples cause => some cause.message
  | .buildNotStarted cause => some cause.message
  | .consoleNotMade cause => some cause
  | .emulatorNotStarted cause => some cause.message
  | .unreadableImage cause => some cause.message
  | .unreadableTable cause => some cause
  | _ => none

/-- A text with each line indented. -/
def indent (text : String) : String :=
  "\n".intercalate ((text.toList.splitOn '\n').map fun line => "    " ++ String.ofList line)

/-- The report of a failure. -/
def Failure.report (workspace : Workspace) (failure : Failure) : String :=
  "Error: " ++ failure.message workspace ++ "\n" ++
    match failure.cause? with
    | some cause => "\nCaused by:\n" ++ indent cause ++ "\n"
    | none => ""

end PolledUart.Tasks
