import PolledUart.Log.Object.Contents
import PolledUart.Log.Object.Field

/-!
# Mach-O files

A Mach-O file has a header and a row of commands. Two kinds of commands matter here: those that
describe a segment with its sections, and those that say where the symbols are. The row ends
without a fault where it is cut short, but what a command describes must be there.
-/

namespace PolledUart.Log.MachO

/-- What is wrong with a Mach-O file. -/
inductive Defect where
  /-- The file ends within its header. -/
  | header
  /-- A command is shorter than those of its kind. -/
  | command
  /-- A command ends before the sections of its segment do. -/
  | sections
  /-- The file ends before its symbols do. -/
  | symbols
deriving Repr, DecidableEq

/-- The wording of a defect. -/
def Defect.message : Defect → String
  | .header => "Invalid Mach-O header size or alignment"
  | .command => "Invalid Mach-O command size"
  | .sections => "Invalid Mach-O number of sections"
  | .symbols => "Invalid Mach-O symbol table offset or size"

/-- Reads a part of a Mach-O file. -/
abbrev Reader := Except Defect

/-! ### Commands -/

/-- A command, by its kind and by where it is. -/
structure Command where
  kind : Nat
  place : Nat
  size : Nat
deriving Repr, DecidableEq

/-- The size of the header. -/
def headerSize (wide : Bool) : Nat := if wide then 32 else 28

/-- The commands from a place up to another, at most so many. Each takes eight bytes at least. -/
def commandsFrom (file : Fields) (place stop : Nat) : (count : Nat) → List Command
  | 0 => []
  | count + 1 =>
    if place + 8 ≤ stop then
      let size := file.word (place + 4)
      if 8 ≤ size ∧ place + size ≤ stop then
        ⟨file.word place, place, size⟩ :: commandsFrom file (place + size) stop count
      else []
    else []

/-- The commands of a file, none if their row does not lie within it. -/
def commands (wide : Bool) (file : Fields) : List Command :=
  let size := file.word 20
  if file.holds (headerSize wide) size then
    commandsFrom file (headerSize wide) (headerSize wide + size) (min (file.word 16) size)
  else []

/-- The kind of commands for segments. -/
def segmentKind (wide : Bool) : Nat := if wide then 0x19 else 1

/-- The kind of commands for symbols. -/
def symbolsKind : Nat := 2

/-! ### Sections -/

/-- Another name by which a section is found: two underscores stand for a point. -/
def otherName? : List UInt8 → Option (List UInt8)
  | 0x5f :: 0x5f :: name => some (0x2e :: name)
  | _ => none

/-- Whether a section of some flags takes no room in the file. -/
def isAbsent (flags : Nat) : Bool := flags % 0x100 ∈ [1, 0xc, 0x12]

/-- The section whose header is at a place. -/
def sectionAt (wide : Bool) (file : Fields) (place index : Nat) : ObjectSection :=
  let name := upToZero (file.stretch place 16)
  let size := file.address wide (place + if wide then 40 else 36)
  let offset := file.word (place + if wide then 48 else 40)
  let flags := file.word (place + if wide then 64 else 56)
  ⟨index, name :: (otherName? name).toList,
    if isAbsent flags then some [] else file.stretch? offset size⟩

/-- The places of the section headers behind a command. -/
def Command.sections (command : Command) (wide : Bool) (file : Fields) : Reader (List Nat) := do
  let size := if wide then 72 else 56
  if command.size < size then throw .command
  let count := file.word (command.place + if wide then 64 else 48)
  let sectionSize := if wide then 80 else 68
  if command.size < size + count * sectionSize then throw .sections
  return (List.range count).map (command.place + size + sectionSize * ·)

/-! ### Symbols -/

/-- A table of symbols. -/
structure Symbols where
  /-- The places of the symbols. -/
  places : List Nat
  /-- Their names. -/
  names : Strings
deriving Repr, DecidableEq

/-- The symbols that a command leads to. -/
def Command.symbols (command : Command) (wide : Bool) (file : Fields) : Reader Symbols := do
  if command.size < 24 then throw .command
  let number := fun index => file.word (command.place + 8 + 4 * index)
  match file.table? (number 0) (number 1) (if wide then 16 else 12) with
  | some places => return ⟨places, ⟨number 2, number 2 + number 3⟩⟩
  | none => throw .symbols

/-- The section of a symbol of a kind and with the number of a section. -/
def homeOf (kind index : Nat) : Option Nat :=
  if kind &&& 0xe = 0xe ∧ index ≠ 0 then some index else none

/-- The symbol at a place, if it is none for a debugger. -/
def Symbols.symbolAt? (symbols : Symbols) (wide : Bool) (file : Fields) (place : Nat) :
    Option ObjectSymbol :=
  let kind := file.byte (place + 4)
  if kind &&& 0xe0 ≠ 0 then none
  else
    ObjectSymbol.ofName? (symbols.names.get? file (file.word place)) (homeOf kind (file.byte (place + 5)))
      (file.address wide (place + 8)) 0

/-! ### The file -/

/-- What the commands up to some point describe. -/
structure State where
  /-- The places of the section headers. -/
  sections : List Nat := []
  /-- The last table of symbols. -/
  symbols : Option Symbols := none
deriving Repr, DecidableEq

/-- Takes a command. -/
def State.take (state : State) (wide : Bool) (file : Fields) (command : Command) :
    Reader State := do
  if command.kind = segmentKind wide then
    return { state with sections := state.sections ++ (← command.sections wide file) }
  else if command.kind = symbolsKind then
    return { state with symbols := some (← command.symbols wide file) }
  else return state

/-- Reads a Mach-O file. -/
def contents (wide bigEndian : Bool) (bytes : List UInt8) : Reader ObjectFile := do
  let file : Fields := ⟨bytes, bigEndian⟩
  if !file.holds 0 (headerSize wide) then throw .header
  let state ← (commands wide file).foldlM (fun (state : State) => state.take wide file) {}
  return ⟨state.sections.zipIdx.map fun (place, index) => sectionAt wide file place (index + 1),
    match state.symbols with
    | some symbols => symbols.places.filterMap (symbols.symbolAt? wide file)
    | none => []⟩

end PolledUart.Log.MachO
