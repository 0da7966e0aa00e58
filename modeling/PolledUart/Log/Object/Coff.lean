import PolledUart.Log.Object.Contents
import PolledUart.Log.Object.Field

/-!
# COFF files

A COFF file has a header, section headers, a table of symbols, and behind that a table of strings
for all names that are too long for a header or a symbol. It comes in three forms: an object
file, an object file with many sections, and a program, which has other headers in front and
whose symbols may be missing.
-/

namespace PolledUart.Log.Coff

/-- What is wrong with a COFF file. -/
inductive Defect where
  /-- The file ends within its header. -/
  | header
  /-- The file ends within the header of a file with many sections. -/
  | bigHeader
  /-- The file ends before its section headers do. -/
  | sections
  /-- The file ends before its symbols do. -/
  | symbols
  /-- There is no table of strings behind the symbols. -/
  | noStrings
  /-- The file ends within the headers of a program. -/
  | programHeader
  /-- The headers of a program leave out some of what they should hold. -/
  | programSize
  /-- The file ends before the headers of a program do. -/
  | programRest
  /-- The headers of a program are too short for the tables that they announce. -/
  | programTables
deriving Repr, DecidableEq

/-- The wording of a defect. -/
def Defect.message : Defect → String
  | .header => "Invalid COFF file header size or alignment"
  | .bigHeader => "Invalid COFF bigobj file header size or alignment"
  | .sections => "Invalid COFF/PE section headers"
  | .symbols => "Invalid COFF symbol table offset or size"
  | .noStrings => "Missing COFF string table"
  | .programHeader => "Invalid PE headers offset or size"
  | .programSize => "PE optional header size is too small"
  | .programRest => "Invalid PE optional header size"
  | .programTables => "Invalid PE number of RVA and sizes"

/-- Reads a part of a COFF file. -/
abbrev Reader := Except Defect

/-- What the header of a COFF file leads to. -/
structure Layout where
  /-- The place of the section headers. -/
  sections : Nat
  /-- The number of sections. -/
  sectionCount : Nat
  /-- The place of the symbols, zero if there are none. -/
  symbols : Nat
  /-- The number of symbols. -/
  symbolCount : Nat
  /-- Whether there may be many sections. -/
  big : Bool
  /-- The address at which the file is loaded. -/
  base : Nat
deriving Repr, DecidableEq

/-- The size of a symbol. -/
def Layout.symbolSize (layout : Layout) : Nat := if layout.big then 20 else 18

/-! ### Names -/

/-- The number that a digit of a base of sixty-four stands for. -/
def digit64? (b : UInt8) : Option Nat :=
  let n := b.toNat
  if 0x41 ≤ n ∧ n ≤ 0x5a then some (n - 0x41)
  else if 0x61 ≤ n ∧ n ≤ 0x7a then some (n - 0x61 + 26)
  else if 0x30 ≤ n ∧ n ≤ 0x39 then some (n - 0x30 + 52)
  else if n = 0x2b then some 62
  else if n = 0x2f then some 63
  else none

/-- The number that a decimal digit stands for. -/
def digit10? (b : UInt8) : Option Nat :=
  if 0x30 ≤ b ∧ b ≤ 0x39 then some (b.toNat - 0x30) else none

/-- The number that some digits write. -/
def digits? (base : Nat) (digit? : UInt8 → Option Nat) (bytes : List UInt8) : Option Nat :=
  bytes.foldlM (fun n b => (digit? b).map (base * n + ·)) 0

/-- The name of a section of which eight bytes are in its header. Behind a slash they are the
place of the name among the strings, in decimal or, behind two, with sixty-four digits. -/
def sectionName? (file : Fields) (strings : Option Strings) (bytes : List UInt8) :
    Option (List UInt8) :=
  let find := fun (offset : Option Nat) => do
    let offset ← offset
    if offset < 0x100000000 then (← strings).get? file offset else none
  match bytes with
  | 0x2f :: 0x2f :: digits => find (digits? 64 digit64? digits)
  | 0x2f :: digits => find (digits? 10 digit10? (upToZero digits))
  | _ => some (upToZero bytes)

/-- The name of a symbol of which eight bytes are in the symbol. After a zero they are the place
of the name among the strings. -/
def symbolName? (file : Fields) (strings : Option Strings) (place : Nat) :
    Option (List UInt8) :=
  if file.byte place = 0 then strings >>= fun strings => strings.get? file (file.word (place + 4))
  else some (upToZero (file.stretch place 8))

/-! ### Sections -/

/-- The size of a section header. -/
def sectionSize : Nat := 40

/-- A section that takes no room in the file. -/
def isAbsent (file : Fields) (place : Nat) : Bool :=
  (file.word (place + 36)).testBit 7

/-- The section whose header is at a place. -/
def sectionAt (file : Fields) (strings : Option Strings) (place index : Nat) : ObjectSection :=
  ⟨index, (sectionName? file strings (file.stretch place 8)).toList,
    if isAbsent file place then some []
    else file.stretch? (file.word (place + 20)) (file.word (place + 16))⟩

/-! ### Symbols -/

/-- The class of symbols that other files may know. -/
def externalClass : Nat := 2

/-- The class of symbols that other files do not know. -/
def staticClass : Nat := 3

/-- The class of symbols within a function. -/
def labelClass : Nat := 6

/-- The class of symbols that name a source file. -/
def fileClass : Nat := 103

/-- The class of symbols that another file may replace. -/
def weakClass : Nat := 105

/-- A symbol as it is stored. -/
structure Symbol where
  /-- Its place in the file. -/
  place : Nat
  /-- Its value. -/
  value : Nat
  /-- The number of its section, if it is in one. -/
  home : Option Nat
  /-- Whether it is in no section and not absolute either. -/
  isUndefined : Bool
  /-- Its type. -/
  type : Nat
  /-- Its class. -/
  storage : Nat
  /-- The number of entries that belong to it. -/
  more : Nat
deriving Repr, DecidableEq

/-- Reads the symbol at a place. Numbers of sections are signed. -/
def Layout.symbolAt (layout : Layout) (file : Fields) (place : Nat) : Symbol :=
  let value := file.word (place + 8)
  if layout.big then
    let home := file.word (place + 12)
    ⟨place, value, if home = 0 ∨ 0x80000000 ≤ home then none else some home, home = 0,
      file.half (place + 16), file.byte (place + 18), file.byte (place + 19)⟩
  else
    let home := file.half (place + 12)
    ⟨place, value, if home = 0 ∨ 0xfeff < home then none else some home, home = 0,
      file.half (place + 14), file.byte (place + 16), file.byte (place + 17)⟩

/-- The name of a symbol. That of a file is in the entries which belong to the symbol, if those
are all there. -/
def Symbol.name? (symbol : Symbol) (layout : Layout) (file : Fields) (strings : Option Strings)
    (left : Nat) : Option (List UInt8) :=
  if symbol.storage = fileClass ∧ symbol.more ≠ 0 then
    if symbol.more < left then
      some (upToZero (file.stretch (symbol.place + layout.symbolSize)
        (symbol.more * layout.symbolSize)))
    else none
  else symbolName? file strings symbol.place

/-- The address of a symbol, which counts from that of its section. -/
def Symbol.address (symbol : Symbol) (layout : Layout) (file : Fields) : Nat :=
  if symbol.storage ∈ [externalClass, staticClass, labelClass, weakClass] then
    match symbol.home with
    | some home =>
      if home ≤ layout.sectionCount then
        layout.base + file.word (layout.sections + sectionSize * (home - 1) + 12) + symbol.value
      else 0
    | none => 0
  else 0

/-- The number of bytes that a symbol takes, as far as it is told. -/
def Symbol.size (symbol : Symbol) (layout : Layout) (file : Fields) (left : Nat) : Nat :=
  let next := symbol.place + layout.symbolSize
  let hasMore := symbol.more ≠ 0 ∧ 1 < left
  if symbol.storage = staticClass then
    if hasMore ∧ symbol.type = 0 then file.word next else 0
  else if symbol.storage = externalClass then
    if symbol.isUndefined then symbol.value
    else if hasMore ∧ symbol.type / 0x10 % 4 = 2 then file.word (next + 4)
    else 0
  else 0

/-- The symbols among some entries; those that belong to a symbol are skipped with it. -/
def Layout.symbolsIn (layout : Layout) (file : Fields) (strings : Option Strings) :
    (skip : Nat) → List Nat → List ObjectSymbol
  | _, [] => []
  | skip + 1, _ :: places => layout.symbolsIn file strings skip places
  | 0, place :: places =>
    let symbol := layout.symbolAt file place
    let left := places.length + 1
    let found := ObjectSymbol.ofName? (symbol.name? layout file strings left) symbol.home
      (symbol.address layout file) (symbol.size layout file left)
    found.toList ++ layout.symbolsIn file strings symbol.more places

/-! ### The file -/

/-- Finds the symbols and the strings behind them. -/
def Layout.readSymbols (layout : Layout) (file : Fields) :
    Reader (List Nat × Option Strings) := do
  if layout.symbols = 0 then return ([], none)
  let some symbols := file.table? layout.symbols layout.symbolCount layout.symbolSize
    | throw .symbols
  let strings := layout.symbols + layout.symbolCount * layout.symbolSize
  if !file.holds strings 4 then throw .noStrings
  return (symbols, some ⟨strings, strings + file.word strings⟩)

/-- Reads the section headers and the symbols, which may be missing where they are optional. -/
def Layout.contents (layout : Layout) (optional : Bool) (file : Fields) : Reader ObjectFile := do
  let some sections := file.table? layout.sections layout.sectionCount sectionSize
    | throw .sections
  let (symbols, strings) ← match layout.readSymbols file with
    | .ok found => pure found
    | .error defect => if optional then pure ([], none) else throw defect
  return ⟨sections.zipIdx.map fun (place, index) => sectionAt file strings place (index + 1),
    layout.symbolsIn file strings 0 symbols⟩

/-- The size of the header of an object file. -/
def headerSize : Nat := 20

/-- The layout that a header at a place leads to; the section headers come behind an optional
header. -/
def layoutAt (file : Fields) (place base : Nat) : Layout where
  sections := place + headerSize + file.half (place + 16)
  sectionCount := file.half (place + 2)
  symbols := file.word (place + 8)
  symbolCount := file.word (place + 12)
  big := false
  base := base

/-- Reads an object file. -/
def contents (bytes : List UInt8) : Reader ObjectFile := do
  let file : Fields := ⟨bytes, false⟩
  if !file.holds 0 headerSize then throw .header
  (layoutAt file 0 0).contents false file

/-- Reads an object file with many sections. -/
def bigContents (bytes : List UInt8) : Reader ObjectFile := do
  let file : Fields := ⟨bytes, false⟩
  if !file.holds 0 56 then throw .bigHeader
  let layout : Layout :=
    { sections := 56
      sectionCount := file.word 44
      symbols := file.word 48
      symbolCount := file.word 52
      big := true
      base := 0 }
  layout.contents false file

/-- The place of a program's own headers. -/
def programPlace (file : Fields) : Nat := file.word 0x3c

/-- Reads a program. Behind its headers are tables, whose number is the last of the headers. -/
def programContents (wide : Bool) (bytes : List UInt8) : Reader ObjectFile := do
  let file : Fields := ⟨bytes, false⟩
  let place := programPlace file
  let optional := place + 24
  let optionalSize := if wide then 112 else 96
  if !file.holds place (24 + optionalSize) then throw .programHeader
  let told := file.half (place + 20)
  if told < optionalSize then throw .programSize
  if !file.holds optional told then throw .programRest
  if told - optionalSize < 8 * file.word (optional + optionalSize - 4) then
    throw .programTables
  let base := if wide then file.number (optional + 24) 8 else file.word (optional + 28)
  (layoutAt file (place + 4) base).contents true file

end PolledUart.Log.Coff
