import PolledUart.Log.Object.Contents
import PolledUart.Log.Object.Field

/-!
# XCOFF files

An XCOFF file is laid out like a COFF file, with the highest byte of a number first. Where
addresses have eight bytes, all names of symbols are among the strings.
-/

namespace PolledUart.Log.Xcoff

/-- What is wrong with an XCOFF file. -/
inductive Defect where
  /-- The file ends within its header. -/
  | header
  /-- The file ends within the header of a program. -/
  | programHeader
  /-- The file ends before its section headers do. -/
  | sections
  /-- The file ends before its symbols do. -/
  | symbols
  /-- There is no table of strings behind the symbols. -/
  | noStrings
deriving Repr, DecidableEq

/-- The wording of a defect. -/
def Defect.message : Defect → String
  | .header => "Invalid XCOFF header size or alignment"
  | .programHeader => "Invalid XCOFF auxiliary header size"
  | .sections => "Invalid XCOFF section headers"
  | .symbols => "Invalid XCOFF symbol table offset or size"
  | .noStrings => "Missing XCOFF string table"

/-- Reads a part of an XCOFF file. -/
abbrev Reader := Except Defect

/-! ### Sections -/

/-- The size of the header. -/
def headerSize (wide : Bool) : Nat := if wide then 24 else 20

/-- The size of the whole header of a program. -/
def programSize (wide : Bool) : Nat := if wide then 110 else 72

/-- The size of a section header. -/
def sectionSize (wide : Bool) : Nat := if wide then 72 else 40

/-- Checks that the header of a program, if it is whole, lies within the file. -/
def checkProgram (wide : Bool) (file : Fields) : Reader Unit :=
  let size := file.half 16
  if (file.half 18).testBit 1 ∧ size = programSize wide ∧ !file.holds (headerSize wide) size then
    .error .programHeader
  else .ok ()

/-- The section whose header is at a place. -/
def sectionAt (wide : Bool) (file : Fields) (place index : Nat) : ObjectSection :=
  let size := file.address wide (place + if wide then 24 else 16)
  let offset := file.address wide (place + if wide then 32 else 20)
  ⟨index, [upToZero (file.stretch place 8)], file.stretch? offset size⟩

/-- The places of the section headers, behind the header of a program if there is one. -/
def readSections (wide : Bool) (file : Fields) : Reader (List Nat) := do
  let count := file.half 2
  if count = 0 then return []
  match file.table? (headerSize wide + file.half 16) count (sectionSize wide) with
  | some places => return places
  | none => throw .sections

/-! ### Symbols -/

/-- The size of a symbol. -/
def symbolSize : Nat := 18

/-- Finds the symbols and the strings behind them. -/
def readSymbols (wide : Bool) (file : Fields) : Reader (List Nat × Option Strings) := do
  let start := file.address wide 8
  if start = 0 then return ([], none)
  let count := file.word (if wide then 20 else 12)
  let some symbols := file.table? start count symbolSize | throw .symbols
  let strings := start + count * symbolSize
  if !file.holds strings 4 then throw .noStrings
  return (symbols, some ⟨strings, strings + file.word strings⟩)

/-- The class of symbols that name a source file. -/
def fileClass : Nat := 103

/-- The classes of symbols that have an address: those that are known to other files, those that
are not, and those for parts of functions. -/
def addressClasses : List Nat := [2, 111, 107, 101, 100, 3, 110]

/-- The classes of symbols that have a size. -/
def sizedClasses : List Nat := [2, 111, 107]

/-- The name that is written in eight bytes of an entry or, after a zero, among the strings. -/
def nameAt? (file : Fields) (strings : Option Strings) (place : Nat) : Option (List UInt8) :=
  if file.byte place = 0 then strings >>= fun strings => strings.get? file (file.word (place + 4))
  else some (upToZero (file.stretch place 8))

/-- The name of a symbol. That of a file is in the entry behind it. -/
def symbolName? (wide : Bool) (file : Fields) (strings : Option Strings) (place left : Nat) :
    Option (List UInt8) :=
  if file.byte (place + 16) = fileClass ∧ file.byte (place + 17) ≠ 0 then
    if left = 0 then none else nameAt? file strings (place + symbolSize)
  else if wide then strings >>= fun strings => strings.get? file (file.word (place + 8))
  else nameAt? file strings place

/-- The section of a symbol; numbers of sections are signed. -/
def homeOf (number : Nat) : Option Nat :=
  if number = 0 ∨ 0x8000 ≤ number then none else some number

/-- The number of bytes that a symbol takes, by the last entry that belongs to it. -/
def symbolBytes (wide : Bool) (file : Fields) (place left : Nat) : Nat :=
  let more := file.byte (place + 17)
  let last := place + symbolSize * more
  if file.byte (place + 16) ∈ sizedClasses ∧ more ≠ 0 ∧ more ≤ left
      ∧ file.byte (last + 10) % 8 ∈ [1, 3] then
    file.word last + if wide then 0x100000000 * file.word (last + 12) else 0
  else 0

/-- The symbols among some entries; those that belong to a symbol are skipped with it. -/
def symbolsIn (wide : Bool) (file : Fields) (strings : Option Strings) :
    (skip : Nat) → List Nat → List ObjectSymbol
  | _, [] => []
  | skip + 1, _ :: places => symbolsIn wide file strings skip places
  | 0, place :: places =>
    let left := places.length
    let value := file.address wide (place + if wide then 0 else 8)
    let address := if file.byte (place + 16) ∈ addressClasses then value else 0
    let found := ObjectSymbol.ofName? (symbolName? wide file strings place left)
      (homeOf (file.half (place + 12))) address (symbolBytes wide file place left)
    found.toList ++ symbolsIn wide file strings (file.byte (place + 17)) places

/-! ### The file -/

/-- Reads an XCOFF file. -/
def contents (wide : Bool) (bytes : List UInt8) : Reader ObjectFile := do
  let file : Fields := ⟨bytes, true⟩
  if !file.holds 0 (headerSize wide) then throw .header
  checkProgram wide file
  let sections ← readSections wide file
  let (symbols, strings) ← readSymbols wide file
  return ⟨sections.zipIdx.map fun (place, index) => sectionAt wide file place (index + 1),
    symbolsIn wide file strings 0 symbols⟩

end PolledUart.Log.Xcoff
