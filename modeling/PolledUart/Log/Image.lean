import PolledUart.Log.Object.Kind
import PolledUart.Log.Symbol

/-!
# Firmware images

What a firmware image says about its log: the names of its symbols, two of which give the version
of the log's format and its encoding, and what stands in the log section.
-/

namespace PolledUart.Log

/-- What a firmware image says about its log. -/
structure Image where
  /-- The names of the symbols, in order. -/
  names : List String
  /-- What the symbols of the log section stand for, if there is such a section. -/
  entries : Option (List Entry)
  /-- Whether the places of the statements can be read. -/
  locatable : Bool
deriving Repr, DecidableEq

/-! ### Versions and encodings -/

/-- What stands in front of the version in the name of its symbol. -/
def versionMark : List Char := "_defmt_version_ = ".toList

/-- What stands in front of the encoding in the name of its symbol. -/
def encodingMark : List Char := "_defmt_encoding_ = ".toList

/-- A text without a mark at its front. -/
def dropMark (mark text : List Char) : List Char :=
  if mark.isPrefixOf text then text.drop mark.length else text

/-- A text without marks at its front, however many there are. -/
def dropMarks (mark text : List Char) : List Char :=
  text.length.repeat (dropMark mark) text

/-- The version that the name of a symbol gives. Some linkers put the name in quotes, which do
not count. -/
def versionOf? (name : String) : Option String :=
  let name := name.toList
  if ('"' :: versionMark).isPrefixOf name ∨ versionMark.isPrefixOf name then
    let unmarked := dropMarks versionMark (dropMarks ('"' :: versionMark) name)
    some (String.ofList (unmarked.reverse.dropWhile (· = '"')).reverse)
  else none

/-- The encoding that the name of a symbol gives. -/
def encodingOf? (name : String) : Option String :=
  if encodingMark.isPrefixOf name.toList then
    some (String.ofList (name.toList.drop encodingMark.length))
  else none

/-- The name of a symbol, which ends at the first zero. -/
def markedName (mark : List Char) (text : String) : String :=
  String.ofList ((mark ++ text.toList).takeWhile (· ≠ '\x00'))

/-- The image that gives a version and an encoding. -/
def Image.ofParts (version encoding : Option String)
    (entries : Option (List Entry)) (locatable : Bool) : Image where
  names := (version.map (markedName versionMark)).toList
    ++ (encoding.map (markedName encodingMark)).toList
  entries := entries
  locatable := locatable

/-! ### Object files -/

/-- The name of the log section. -/
def logSection : String := ".defmt"

/-- Whether the name of a symbol in the log section is a record. Linkers and compilers put other
symbols there as well. -/
def isRecordName (name : String) : Bool :=
  let name := name.toList
  !(name.isEmpty || name = "$d".toList || "$d.".toList.isPrefixOf name
    || "_defmt".toList.isPrefixOf name || "__DEFMT_MARKER".toList.isPrefixOf name)

/-- What a symbol of an object file stands for, if it is of interest. The places of statements
are not told. -/
def ObjectSymbol.meaning? (symbol : ObjectSymbol) (content : Option (List UInt8)) :
    Option Entry :=
  if isRecordName symbol.name then
    match SymbolName.parse symbol.name with
    | .ok name => Entry.ofName? name symbol.name symbol.address symbol.size none content
    | .error fault => some (.unknown (.name symbol.name fault))
  else none

/-- What an object file says about a log. -/
def ObjectFile.image (file : ObjectFile) : Image where
  names := file.symbols.map (·.name)
  entries := (file.find? logSection).map fun home =>
    (file.symbols.filter (·.home = some home.index)).filterMap (·.meaning? home.bytes)
  locatable := false

/-- What the bytes of a file say about a log. -/
def Image.ofBytes (bytes : List UInt8) : Except ObjectError Image :=
  (·.image) <$> ObjectFile.read bytes

end PolledUart.Log
