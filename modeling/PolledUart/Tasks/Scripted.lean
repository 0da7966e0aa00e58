import PolledUart.Log.Frame
import PolledUart.Tasks.Toolchain

/-!
# Scripted tools

Stand-ins for the build tool and the emulator that behave, for each example, as a script
says. An example that the script does not name behaves as its entry `*` says. The logs are read
by the decoder of `Log.decode`.

A script may give an image by its parts, which need not tell how they would be laid out in an
object file: the build tool then writes the parts out, and the decoder knows them again.
-/

namespace PolledUart.Tasks

/-- How the tools behave for an example. -/
structure Scene where
  /-- What the build tool does. -/
  build : BuildRun
  /-- What the emulator does. -/
  emulate : EmulatorRun
deriving Repr, DecidableEq

/-- A script for the tools. -/
structure Script where
  /-- The examples and the behaviour of the tools for each. -/
  scenes : List (String × Scene)
  /-- Whether there is a build tool. -/
  hasBuildTool : Bool := true
  /-- Whether there is an emulator. -/
  hasEmulator : Bool := true
  /-- Why no file can be made for a console, if none can. -/
  consoleFault : Option String := none

/-- The behaviour for an example. -/
def Script.scene? (script : Script) (name : String) : Option Scene :=
  script.scenes.lookup name <|> script.scenes.lookup "*"

/-- The name by which the emulator knows a job: that of the image file. -/
def Job.imageName (job : Job) : String :=
  job.image.lastName?.getD ""

/-! ### Images and logs -/

/-- The file that the build tool writes. -/
def File.laidOut (file : File) : File :=
  match file.parts with
  | some parts => .ofText (reprStr parts)
  | none => file

/-- The parts that a script has given for some bytes. -/
def Script.parts? (script : Script) (bytes : List UInt8) : Option Log.Image :=
  script.scenes.findSome? fun (_, scene) => do
    let file ← scene.build.image
    let parts ← file.parts
    guard (file.laidOut.bytes = bytes)
    return parts

/-- What the bytes of a file say as a firmware image. -/
def Script.readImage (script : Script) (bytes : List UInt8) :
    Except Log.TableError Log.Image :=
  match script.parts? bytes with
  | some parts => .ok parts
  | none => (Log.Image.ofBytes bytes).mapError .noImage

/-- How the logs of a table are read. -/
def readerOf (table : Log.Table) : LogReader where
  place? index := table.places.lookup index
  read := Log.decode table

/-- Reads the table in the bytes of an image. -/
def Script.readTable (script : Script) (bytes : List UInt8) :
    Except String (Option LogReader) :=
  match script.readImage bytes >>= Log.Table.ofImage? with
  | .ok table => .ok (table.map readerOf)
  | .error cause => .error cause.message

/-! ### Tools -/

/-- The directory where the program is started. -/
def Script.current : Path := ["tmp"]

/-- The files outside of the project. -/
def Script.elsewhere : Tree :=
  .directory [("dev", .directory [("null", .file ⟨[], none⟩)]), ("etc", .directory []),
    ("tmp", .directory []), ("usr", .directory []), ("var", .directory [])]

/-- The tools that follow a script. A tool that the script does not provide for an example,
or at all, cannot be started. -/
def Script.tools (script : Script) : Toolchain where
  build _ job :=
    match script.scene? job.name with
    | some ⟨run, _⟩ =>
      if script.hasBuildTool then .ok { run with image := run.image.map (·.laidOut) }
      else .error .notFound
    | none => .error .notFound
  makeConsole _ _ :=
    match script.consoleFault with
    | some cause => .error cause
    | none => .ok ()
  emulate _ job :=
    match script.scene? job.imageName with
    | some scene => if script.hasEmulator then .ok scene.emulate else .error .notFound
    | none => .error .notFound
  readTable := script.readTable
  current := Script.current
  elsewhere _ := Script.elsewhere

/-- Scripted tools have no memory. -/
theorem Script.steady_tools (script : Script) : script.tools.Steady :=
  fun _ _ _ => ⟨rfl, rfl, rfl⟩

end PolledUart.Tasks
