import PolledUart.Log.Object.Coff
import PolledUart.Log.Object.Elf
import PolledUart.Log.Object.MachO
import PolledUart.Log.Object.Xcoff

/-!
# Kinds of object files

The kinds of files that a linker deals with are told apart by their first bytes, and each is read
in its own way.
-/

namespace PolledUart.Log

/-- A kind of file that holds sections and symbols; `wide` says that addresses have eight
bytes. -/
inductive ObjectKind where
  | elf (wide : Bool)
  | coff
  | bigCoff
  | program (wide : Bool)
  | machO (wide bigEndian : Bool)
  | xcoff (wide : Bool)
deriving Repr, DecidableEq

/-- Why nothing can be read from a file. -/
inductive ObjectError where
  /-- The file is too short to tell what it is. -/
  | noMagic
  /-- The file is of no known kind. -/
  | unknownMagic
  /-- The file is of a kind that has no symbols of its own. -/
  | unsupportedKind
  /-- The file is for MS-DOS. -/
  | dosFile
  /-- The file is an object without a machine, of an unknown class. -/
  | anonymousObject
  | elf (defect : Elf.Defect)
  | coff (defect : Coff.Defect)
  | machO (defect : MachO.Defect)
  | xcoff (defect : Xcoff.Defect)
deriving Repr, DecidableEq

/-- The wording of a reason. -/
def ObjectError.message : ObjectError → String
  | .noMagic => "Could not read file magic"
  | .unknownMagic => "Unknown file magic"
  | .unsupportedKind => "Unsupported file format"
  | .dosFile => "Unknown MS-DOS file"
  | .anonymousObject => "Unknown anon object file"
  | .elf defect => defect.message
  | .coff defect => defect.message
  | .machO defect => defect.message
  | .xcoff defect => defect.message

/-! ### Telling kinds apart -/

/-- The class of objects without a machine that are COFF files with many sections. -/
def bigCoffClass : List UInt8 :=
  [0xc7, 0xa1, 0xba, 0xd1, 0xee, 0xba, 0xa9, 0x4b, 0xaf, 0x20, 0xfa, 0xf6, 0x6a, 0xa4, 0xdc, 0xb8]

/-- The kind of an object without a machine. -/
def anonymousKind (bytes : List UInt8) : Except ObjectError ObjectKind :=
  if 32 ≤ bytes.length ∧ (bytes.drop 12).take 16 = bigCoffClass then .ok .bigCoff
  else .error .anonymousObject

/-- The kind of a file for MS-DOS: it may lead on to a program. -/
def dosKind (bytes : List UInt8) : Except ObjectError ObjectKind :=
  let file : Fields := ⟨bytes, false⟩
  let place := Coff.programPlace file
  if file.holds 0 64 ∧ file.holds place 120 ∧ file.word place = 0x4550 then
    match file.half (place + 24) with
    | 0x10b => .ok (.program false)
    | 0x20b => .ok (.program true)
    | _ => .error .dosFile
  else .error .dosFile

/-- The first bytes of each kind of file, and what they mean for a file. -/
def magics : List (List UInt8 × (List UInt8 → Except ObjectError ObjectKind)) :=
  [([0x7f, 0x45, 0x4c, 0x46, 0x01], fun _ => .ok (.elf false)),
    ([0x7f, 0x45, 0x4c, 0x46, 0x02], fun _ => .ok (.elf true)),
    ([0xfe, 0xed, 0xfa, 0xce], fun _ => .ok (.machO false true)),
    ([0xce, 0xfa, 0xed, 0xfe], fun _ => .ok (.machO false false)),
    ([0xfe, 0xed, 0xfa, 0xcf], fun _ => .ok (.machO true true)),
    ([0xcf, 0xfa, 0xed, 0xfe], fun _ => .ok (.machO true false)),
    ([0xc4, 0x01], fun _ => .ok .coff),
    ([0x64, 0xaa], fun _ => .ok .coff),
    ([0x41, 0xa6], fun _ => .ok .coff),
    ([0x4c, 0x01], fun _ => .ok .coff),
    ([0x64, 0x86], fun _ => .ok .coff),
    ([0x01, 0xdf], fun _ => .ok (.xcoff false)),
    ([0x01, 0xf7], fun _ => .ok (.xcoff true)),
    ([0x4d, 0x5a], dosKind),
    ([0x00, 0x00, 0xff, 0xff, 0x02, 0x00], anonymousKind),
    ([0x00, 0x00, 0xff, 0xff, 0x00, 0x00], fun _ => .error .unsupportedKind),
    ([0xca, 0xfe, 0xba, 0xbe], fun _ => .error .unsupportedKind),
    ([0xca, 0xfe, 0xba, 0xbf], fun _ => .error .unsupportedKind),
    ([0x21, 0x3c, 0x61, 0x72, 0x63, 0x68, 0x3e, 0x0a], fun _ => .error .unsupportedKind),
    ([0x21, 0x3c, 0x74, 0x68, 0x69, 0x6e, 0x3e, 0x0a], fun _ => .error .unsupportedKind),
    ([0x64, 0x79, 0x6c, 0x64, 0x5f, 0x76, 0x31, 0x20], fun _ => .error .unsupportedKind)]

/-- The number of bytes that it takes to tell what a file is. -/
def magicSize : Nat := 16

/-- The kind of a file. -/
def ObjectKind.ofBytes (bytes : List UInt8) : Except ObjectError ObjectKind :=
  if bytes.length < magicSize then .error .noMagic
  else
    match magics.find? (·.1.isPrefixOf bytes) with
    | some (_, kind) => kind bytes
    | none => .error .unknownMagic

/-! ### Reading -/

/-- Reads an object file of any kind. -/
def ObjectFile.read (bytes : List UInt8) : Except ObjectError ObjectFile := do
  match ← ObjectKind.ofBytes bytes with
  | .elf wide => (Elf.contents wide bytes).mapError .elf
  | .coff => (Coff.contents bytes).mapError .coff
  | .bigCoff => (Coff.bigContents bytes).mapError .coff
  | .program wide => (Coff.programContents wide bytes).mapError .coff
  | .machO wide bigEndian => (MachO.contents wide bigEndian bytes).mapError .machO
  | .xcoff wide => (Xcoff.contents wide bytes).mapError .xcoff

end PolledUart.Log
