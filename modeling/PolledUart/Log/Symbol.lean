import PolledUart.Log.Flags
import PolledUart.Log.Line
import PolledUart.Log.LittleEndian
import PolledUart.Text.Json

/-!
# Symbols of a log section

The firmware image carries one symbol for each log statement, for each part of one, and for each
flag. The name of such a symbol is a record in JSON that says what the symbol stands for, and its
address is the number that the log sends for it. A symbol for something else is of no interest.
-/

namespace PolledUart.Log

/-- The path of a file that is named in a directory. -/
def pathIn (directory file : String) : String :=
  if file.toList.head? = some '/' then file else directory ++ "/" ++ file

/-- What a statement without a level is for. -/
inductive Part where
  /-- To show a value of a type that is built in. -/
  | primitive
  /-- To show a value of a type whose parts are known. -/
  | derived
  /-- To show a set of flags. -/
  | flags
  /-- To show a value in its own way. -/
  | written
  /-- To be a text. -/
  | interned
  /-- To print a line. -/
  | line
deriving Repr, DecidableEq

/-- What a statement is. -/
inductive SymbolKind where
  /-- A log statement of a level. -/
  | message (level : Level)
  /-- A statement without a level, which can be a part of others. -/
  | part (part : Part)
  /-- The format of the time stamp in front of every line. -/
  | timestamp
deriving Repr, DecidableEq

/-- The level of a statement, if it has one. -/
def SymbolKind.level? : SymbolKind → Option Level
  | .message level => some level
  | .part _ => none
  | .timestamp => none

/-- The kind of statement that a tag names. -/
def SymbolKind.ofTag? : String → Option SymbolKind
  | "defmt_trace" => some (.message .trace)
  | "defmt_debug" => some (.message .debug)
  | "defmt_info" => some (.message .info)
  | "defmt_warn" => some (.message .warn)
  | "defmt_error" => some (.message .error)
  | "defmt_println" => some (.part .line)
  | "defmt_prim" => some (.part .primitive)
  | "defmt_derived" => some (.part .derived)
  | "defmt_bitflags" => some (.part .flags)
  | "defmt_write" => some (.part .written)
  | "defmt_str" => some (.part .interned)
  | "defmt_timestamp" => some .timestamp
  | _ => none

/-- The tag of flags. -/
def flagTag : String := "defmt_bitflags_value"

/-- A statement. -/
structure Symbol where
  /-- What it is. -/
  kind : SymbolKind
  /-- The number that the log sends for it. -/
  index : Nat
  /-- Its text, with holes. -/
  text : String
  /-- Where it stands in the source, if the image tells. -/
  location : Option Location
deriving Repr, DecidableEq

/-! ### Names -/

/-- What the name of a symbol says. -/
structure SymbolName where
  /-- The package in which the symbol was made. -/
  package : String
  /-- What tells it from others that say the same. -/
  disambiguator : String
  /-- What it stands for. -/
  tag : String
  /-- Its text. -/
  text : String
  /-- The library in which it was made, if that is told. -/
  library : Option String
deriving Repr, DecidableEq

/-- The record in a name. -/
def SymbolName.shape : Text.Json.Shape where
  name := "Symbol"
  required := ["package", "disambiguator", "tag", "data"]
  optional := "crate_name"

/-- Reads a name. -/
def SymbolName.parse (name : String) : Except Text.Json.Fault SymbolName := do
  let record ← shape.parse name
  let value := fun key => (record.lookup key).join.getD ""
  return ⟨value "package", value "disambiguator", value "tag", value "data",
    (record.lookup "crate_name").join⟩

/-- A string of a record. -/
def writeField (key value : String) : String :=
  Text.quote key ++ ":" ++ Text.quote value

/-- Writes a name. -/
def SymbolName.write (name : SymbolName) : String :=
  let library := name.library.toList.map (writeField "crate_name" ·)
  "\x7b" ++ ",".intercalate ([writeField "package" name.package, writeField "tag" name.tag,
    writeField "data" name.text, writeField "disambiguator" name.disambiguator] ++ library) ++ "\x7d"

/-! ### Entries -/

/-- What is wrong with the number of a flag. -/
inductive NumberDefect where
  /-- There is none. -/
  | empty
  /-- Some character is no digit. -/
  | digit
  /-- It does not fit in sixteen bytes. -/
  | tooGreat
deriving Repr, DecidableEq

/-- Why a symbol of the log section cannot be understood. -/
inductive EntryError where
  /-- Its name cannot be read. -/
  | name (name : String) (fault : Text.Json.Fault)
  /-- A flag does not take sixteen bytes. -/
  | flagSize (name : String)
  /-- The log section is not in the file. -/
  | noContent
  /-- A flag lies outside of the log section. -/
  | flagPlace (address : Nat)
  /-- The text of a flag does not have three parts. -/
  | flagText (text : String)
  /-- The number of a flag cannot be read. -/
  | flagNumber (defect : NumberDefect)
deriving Repr, DecidableEq

/-- The wording of a defect. -/
def NumberDefect.message : NumberDefect → String
  | .empty => "cannot parse integer from empty string"
  | .digit => "invalid digit found in string"
  | .tooGreat => "number too large to fit in target type"

/-- The wording of a reason. -/
def EntryError.message : EntryError → String
  | .name written fault =>
    "failed to demangle defmt symbol `" ++ written ++ "`: " ++ fault.message
  | .flagSize written => "bitflags value does not occupy 16 bytes (symbol `" ++ written ++ "`)"
  | .noContent => "Invalid ELF section size or offset"
  | .flagPlace address =>
    "bitflags value at 0x" ++ String.ofList (Nat.toDigits 16 address)
      ++ " outside of defmt section"
  | .flagText text => "malformed bitflags value string '" ++ text ++ "'"
  | .flagNumber defect => defect.message

/-- The bound of the numbers of flags. -/
def flagLimit : Nat := 0x100000000000000000000000000000000

/-- Reads the number of a flag, which may have a plus sign. -/
def flagNumber (text : List Char) : Except NumberDefect Nat :=
  let digits := match text with
    | '+' :: d :: rest => d :: rest
    | text => text
  if digits.isEmpty then .error .empty
  else if digits.all Char.isDigit then
    let n := digits.foldl (fun n c => 10 * n + (c.toNat - '0'.toNat)) 0
    if n < flagLimit then .ok n else .error .tooGreat
  else .error .digit

/-- What a symbol of the log section stands for. -/
inductive Entry where
  /-- A statement. -/
  | statement (symbol : Symbol)
  /-- The flag of a number in a group. -/
  | flag (group : FlagGroup) (number : Nat) (flag : Flag)
  /-- Nothing that can be understood. -/
  | unknown (cause : EntryError)
deriving Repr, DecidableEq

/-- Cuts a text at pairs of colons. -/
def splitAtColons : (past : List Char) → List Char → List (List Char)
  | past, [] => [past.reverse]
  | past, ':' :: ':' :: rest => past.reverse :: splitAtColons [] rest
  | past, c :: rest => splitAtColons (c :: past) rest

/-- The flag of a name, with its bits in the bytes of the section. -/
def readFlag (name : SymbolName) (written : String) (address size : Nat)
    (content : Option (List UInt8)) : Except EntryError Entry := do
  if size ≠ 16 then throw (.flagSize written)
  let some content := content | throw .noContent
  if content.length < address + 16 then throw (.flagPlace address)
  let bits := ofLittleEndian ((content.drop address).take 16)
  match splitAtColons [] name.text.toList with
  | [group, number, own] =>
    let number ← (flagNumber number).mapError .flagNumber
    return .flag ⟨String.ofList group, name.package, name.disambiguator, name.library⟩ number
      ⟨String.ofList own, bits⟩
  | _ => throw (.flagText name.text)

/-- What a symbol of the log section stands for, if it is of interest: a name, as it is written
too, an address, a size, the place of the statement and the content of the section. -/
def Entry.ofName? (name : SymbolName) (written : String) (address size : Nat)
    (location : Option Location) (content : Option (List UInt8)) : Option Entry :=
  if name.tag = flagTag then
    match readFlag name written address size content with
    | .ok entry => some entry
    | .error cause => some (.unknown cause)
  else
    (SymbolKind.ofTag? name.tag).map fun kind =>
      .statement ⟨kind, address, name.text, location⟩

end PolledUart.Log
