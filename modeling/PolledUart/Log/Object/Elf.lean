import PolledUart.Log.Object.Contents
import PolledUart.Log.Object.Field

/-!
# ELF files

An ELF file starts with a header that leads to a table of program headers and to one of section
headers. Numbers that are too great for the header are found in the first section. Symbols are
in a section of their own, with their names in another.

`Elf.contents` reads the tables in the order in which they depend on each other, and the first
one that is not as it should be decides.
-/

namespace PolledUart.Log.Elf

/-- What is wrong with an ELF file. -/
inductive Defect where
  /-- The file ends within its header. -/
  | header
  /-- The header is not one of those that are understood. -/
  | unsupported
  /-- The program headers do not have their size. -/
  | programSize
  /-- The file ends before its program headers do. -/
  | programs
  /-- The number of program headers is in a section, but there are no sections. -/
  | programCount
  /-- The section headers do not have their size. -/
  | sectionSize
  /-- The file ends before its first section header does. -/
  | firstSection
  /-- The file ends before its section headers do. -/
  | sections
  /-- It is not told where the names of sections are. -/
  | noNames
  /-- The names of sections are in none of the sections. -/
  | badNames
  /-- The names of sections are too many to be in any file. -/
  | namesSize
  /-- The file ends before a symbol table does. -/
  | symbols
  /-- A symbol table has its names in none of the sections. -/
  | stringSection
  /-- A symbol table has its names in a section of another kind. -/
  | stringKind
  /-- The names of symbols are too many to be in any file. -/
  | stringSize
  /-- The file ends before the list of the symbols' sections does. -/
  | symbolSections
  /-- Relocations are for none of the sections. -/
  | relocated
  /-- Relocations are for a section of relocations. -/
  | relocatedKind
deriving Repr, DecidableEq

/-- The wording of a defect. -/
def Defect.message : Defect → String
  | .header => "Invalid ELF header size or alignment"
  | .unsupported => "Unsupported ELF header"
  | .programSize => "Invalid ELF program header entry size"
  | .programs => "Invalid ELF program header size or alignment"
  | .programCount => "Missing ELF section headers for e_phnum overflow"
  | .sectionSize => "Invalid ELF section header entry size"
  | .firstSection => "Invalid ELF section header offset or size"
  | .sections => "Invalid ELF section header offset/size/alignment"
  | .noNames => "Missing ELF e_shstrndx"
  | .badNames => "Invalid ELF e_shstrndx"
  | .namesSize => "Invalid ELF shstrtab size"
  | .symbols => "Invalid ELF symbol table data"
  | .stringSection => "Invalid ELF section index"
  | .stringKind => "Invalid ELF string section type"
  | .stringSize => "Invalid ELF string section offset or size"
  | .symbolSections => "Invalid ELF symtab_shndx data"
  | .relocated => "Invalid ELF sh_info for relocation section"
  | .relocatedKind => "Unsupported ELF sh_info for relocation section"

/-- Reads a part of an ELF file. -/
abbrev Reader := Except Defect

/-- The bound of all addresses. -/
def addressLimit : Nat := 0x10000000000000000

/-! ### The header -/

/-- The header of an ELF file. -/
structure Header where
  /-- The file. -/
  file : Fields
  /-- Whether addresses have eight bytes. -/
  wide : Bool
deriving Repr, DecidableEq

namespace Header

/-- The size of the header itself. -/
def size (wide : Bool) : Nat := if wide then 64 else 52

/-- The size of a program header. -/
def programSize (header : Header) : Nat := if header.wide then 56 else 32

/-- The size of a section header. -/
def sectionSize (header : Header) : Nat := if header.wide then 64 else 40

/-- The place of the program headers. -/
def programs (header : Header) : Nat :=
  header.file.address header.wide (if header.wide then 32 else 28)

/-- The place of the section headers. -/
def sections (header : Header) : Nat :=
  header.file.address header.wide (if header.wide then 40 else 32)

/-- A number of two bytes in the last part of the header, which starts with the size of a
program header. -/
def tail (header : Header) (index : Nat) : Nat :=
  header.file.half ((if header.wide then 54 else 42) + 2 * index)

end Header

/-- Reads the header. -/
def readHeader (wide : Bool) (bytes : List UInt8) : Reader Header := do
  let file : Fields := ⟨bytes, false⟩
  if !file.holds 0 (Header.size wide) then throw .header
  let order := file.byte 5
  if order ≠ 1 ∧ order ≠ 2 ∨ file.byte 6 ≠ 1 then throw .unsupported
  return ⟨⟨bytes, order = 2⟩, wide⟩

/-! ### Sections -/

/-- A section header. -/
structure Section where
  name : Nat
  kind : Nat
  offset : Nat
  size : Nat
  link : Nat
  info : Nat
deriving Repr, DecidableEq

/-- The section header at a place. -/
def Header.sectionAt (header : Header) (place : Nat) : Section :=
  let word := fun offset => header.file.word (place + offset)
  let address := fun offset => header.file.address header.wide (place + offset)
  if header.wide then ⟨word 0, word 4, address 24, address 32, word 40, word 44⟩
  else ⟨word 0, word 4, address 16, address 20, word 24, word 28⟩

/-- A section that takes no room in the file. -/
def Section.isAbsent (s : Section) : Bool := s.kind = 8

/-- A section of strings. -/
def Section.isStrings (s : Section) : Bool := s.kind = 3

/-- A section of relocations. -/
def Section.isRelocations (s : Section) : Bool := s.kind = 4 || s.kind = 9

/-- The bytes of a section, if they lie within the file. -/
def Section.bytes? (s : Section) (file : Fields) : Option (List UInt8) :=
  if s.isAbsent then some [] else file.stretch? s.offset s.size

/-- The first section header, if there are any. -/
def Header.firstSection? (header : Header) : Reader (Option Section) := do
  if header.sections = 0 then return none
  if header.tail 2 ≠ header.sectionSize then throw .sectionSize
  if !header.file.holds header.sections header.sectionSize then throw .firstSection
  return some (header.sectionAt header.sections)

/-- Checks the program headers. -/
def Header.checkPrograms (header : Header) : Reader Unit := do
  if header.programs = 0 then return
  let count ← match header.tail 1 with
    | 0xffff =>
      match ← header.firstSection? with
      | some first => pure first.info
      | none => throw .programCount
    | count => pure count
  if count = 0 then return
  if header.tail 0 ≠ header.programSize then throw .programSize
  if !header.file.holds header.programs (count * header.programSize) then throw .programs

/-- Reads the section headers. -/
def Header.readSections (header : Header) : Reader (List Section) := do
  if header.sections = 0 then return []
  let count ← match header.tail 3 with
    | 0 => pure <| ((← header.firstSection?).map (·.size)).getD 0
    | count => pure count
  if count = 0 then return []
  if header.tail 2 ≠ header.sectionSize then throw .sectionSize
  match header.file.table? header.sections count header.sectionSize with
  | some places => return places.map header.sectionAt
  | none => throw .sections

/-- Finds the names of the sections. -/
def Header.readNames (header : Header) (sections : List Section) : Reader (Option Strings) := do
  if sections.isEmpty then return none
  let index ← match header.tail 4 with
    | 0xffff => pure <| ((← header.firstSection?).map (·.link)).getD 0
    | index => pure index
  if index = 0 then throw .noNames
  match sections[index]? with
  | none => throw .badNames
  | some names =>
    if names.isAbsent then return none
    if addressLimit ≤ names.offset + names.size then throw .namesSize
    return some ⟨names.offset, names.offset + names.size⟩

/-! ### Symbols -/

/-- A table of symbols. -/
structure Symbols where
  /-- The number of its section. -/
  home : Nat
  /-- The places of the symbols. -/
  places : List Nat
  /-- The names of the symbols. -/
  names : Option Strings
  /-- The place of the symbols' sections, where these have numbers that are too great for the
  symbols themselves, and how many there are. -/
  homes : Option (Nat × Nat)
deriving Repr, DecidableEq

/-- The kind of sections that say for a symbol table in which sections its symbols are. -/
def homesKind : Nat := 18

/-- The section's numbers of so many bytes, as places in the file. -/
def Section.entries? (s : Section) (file : Fields) (size : Nat) : Option (List Nat) :=
  if s.isAbsent then some []
  else if file.holds s.offset s.size then file.table? s.offset (s.size / size) size
  else none

/-- The names that a symbol table refers to. -/
def readStrings (sections : List Section) (link : Nat) : Reader (Option Strings) := do
  if link = 0 then return none
  match sections[link]? with
  | none => throw .stringSection
  | some names =>
    if !names.isStrings then throw .stringKind
    if addressLimit ≤ names.offset + names.size then throw .stringSize
    return some ⟨names.offset, names.offset + names.size⟩

/-- Finds the last list of sections for a symbol table. -/
def readHomes (file : Fields) (sections : List Section) (table : Nat) :
    Reader (Option (Nat × Nat)) :=
  sections.foldlM (fun found s => do
    if s.kind ≠ homesKind ∨ s.link ≠ table then return found
    match s.entries? file 4 with
    | some entries => return some (s.offset, entries.length)
    | none => throw .symbolSections) none

/-- Reads the first symbol table of a kind. -/
def Header.readSymbols (header : Header) (sections : List Section) (kind : Nat) :
    Reader Symbols := do
  match sections.findIdx? (·.kind = kind) with
  | none => return ⟨0, [], none, none⟩
  | some home =>
    let some table := sections[home]? | throw .symbols
    let some places := table.entries? header.file (if header.wide then 24 else 16)
      | throw .symbols
    let names ← readStrings sections table.link
    return ⟨home, places, names, ← readHomes header.file sections home⟩

/-- The section of a symbol by its own number, or by the list of sections. Numbers from a bound
on have meanings of their own. -/
def Symbols.homeOf (symbols : Symbols) (file : Fields) (index own : Nat) : Option Nat :=
  if own = 0xffff then
    match symbols.homes with
    | some (place, count) => if index < count then some (file.word (place + 4 * index)) else none
    | none => none
  else if own = 0 ∨ 0xff00 ≤ own then none
  else some own

/-- The symbol at a place. -/
def Symbols.symbolAt (symbols : Symbols) (header : Header) (index place : Nat) :
    Option ObjectSymbol :=
  let file := header.file
  let name := symbols.names >>= fun names => names.get? file (file.word place)
  let home := symbols.homeOf file index (file.half (place + if header.wide then 6 else 14))
  let value := file.address header.wide (place + if header.wide then 8 else 4)
  let size := file.address header.wide (place + if header.wide then 16 else 8)
  ObjectSymbol.ofName? name home value size

/-- All symbols but the first, which stands for none. -/
def Symbols.toList (symbols : Symbols) (header : Header) : List ObjectSymbol :=
  (symbols.places.zipIdx.drop 1).filterMap fun (place, index) =>
    symbols.symbolAt header index place

/-! ### Relocations -/

/-- Checks a section of relocations by the symbols of a table. -/
def checkRelocations (sections : List Section) (table : Nat) (s : Section) : Reader Unit := do
  if !s.isRelocations ∨ s.link ≠ table ∨ s.info = 0 then return
  match sections[s.info]? with
  | none => throw .relocated
  | some relocated => if relocated.isRelocations then throw .relocatedKind

/-! ### The file -/

/-- The kind of the section with the symbols of a file. -/
def symbolsKind : Nat := 2

/-- The kind of the section with the symbols that are bound when a program starts. -/
def dynamicSymbolsKind : Nat := 11

/-- The section of a number, as it can be found. -/
def Section.toObject (file : Fields) (names : Option Strings) (s : Section) (index : Nat) :
    ObjectSection :=
  ⟨index, (names >>= fun names => names.get? file s.name).toList, s.bytes? file⟩

/-- Reads an ELF file. -/
def contents (wide : Bool) (bytes : List UInt8) : Reader ObjectFile := do
  let header ← readHeader wide bytes
  header.checkPrograms
  let sections ← header.readSections
  let names ← header.readNames sections
  let symbols ← header.readSymbols sections symbolsKind
  let _ ← header.readSymbols sections dynamicSymbolsKind
  sections.reverse.forM (checkRelocations sections symbols.home)
  return ⟨sections.zipIdx.map fun (s, index) => s.toObject header.file names index,
    symbols.toList header⟩

end PolledUart.Log.Elf
