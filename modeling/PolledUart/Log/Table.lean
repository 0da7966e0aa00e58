import PolledUart.Log.Image

/-!
# The table of log statements

`Table.ofImage?` collects the statements of a firmware image, unless the image says too little, or
says something that is not understood, about how its log is written. An image that says nothing
at all has no log.

Of several statements with one number the table has the last. The places of statements are
kept beside the statements: they are found by the number, and only those count whose statement
is in the table. Where two of them claim one number, none of the image's places can be trusted.
-/

namespace PolledUart.Log

/-- How the frames of a log follow each other. -/
inductive Encoding where
  /-- One behind the other. -/
  | raw
  /-- Free of zeros, with a zero behind each. -/
  | rzcobs
deriving Repr, DecidableEq

/-- The encoding of a name. -/
def Encoding.ofName? : String → Option Encoding
  | "raw" => some .raw
  | "rzcobs" => some .rzcobs
  | _ => none

/-- Why no table can be made. -/
inductive TableError where
  /-- The file is no firmware image. -/
  | noImage (cause : ObjectError)
  /-- Two versions are given. -/
  | severalVersions (first second : String)
  /-- Two encodings are given. -/
  | severalEncodings (first second : String)
  /-- A version is given, but there is no log section. -/
  | noSection
  /-- There is a log section, but no version is given. -/
  | noVersion
  /-- The version is none of those that can be read. -/
  | unknownVersion (version : String)
  /-- The encoding is not given. -/
  | noEncoding
  /-- The encoding is none of those that can be read. -/
  | unknownEncoding (name : String)
  /-- A symbol of the log section cannot be understood. -/
  | badEntry (cause : EntryError)
  /-- More than one symbol gives the format of the time stamp. -/
  | severalTimestamps
deriving Repr, DecidableEq

/-- The wording of a reason. -/
def TableError.message : TableError → String
  | .noImage cause => cause.message
  | .severalVersions first second =>
    "multiple defmt versions in use: " ++ first ++ " and " ++ second
      ++ " (only one is supported)"
  | .severalEncodings first second =>
    "multiple defmt encodings in use: " ++ first ++ " and " ++ second
      ++ " (only one is supported)"
  | .noSection =>
    "defmt version found, but no `.defmt` metadata section - check your linker configuration"
  | .noVersion => "found `.defmt` metadata sections, but no defmt version symbol"
  | .unknownVersion version =>
    "defmt wire format version mismatch: firmware is using " ++ version
      ++ ", this tool supports 3, 4\nsuggestion: install a newer version of this tool that "
      ++ "supports defmt wire format version " ++ version
  | .noEncoding => "No defmt encoding specified. This is a bug."
  | .unknownEncoding name => "Unknown defmt encoding '" ++ name ++ "' specified. This is a bug."
  | .badEntry cause => cause.message
  | .severalTimestamps => "multiple timestamp format specifications found"

/-! ### What is declared -/

/-- The version and the encoding of a log, as they are named. -/
structure Declaration where
  version : Option String := none
  encoding : Option String := none
deriving Repr, DecidableEq

/-- Takes the name of a symbol. Each of the two is given once at most. -/
def Declaration.take (declared : Declaration) (name : String) :
    Except TableError Declaration :=
  match versionOf? name, encodingOf? name with
  | some version, _ =>
    match declared.version with
    | some first => .error (.severalVersions first version)
    | none => .ok { declared with version := some version }
  | none, some encoding =>
    match declared.encoding with
    | some first => .error (.severalEncodings first encoding)
    | none => .ok { declared with encoding := some encoding }
  | none, none => .ok declared

/-- What an image declares about its log. -/
def Image.declaration (image : Image) : Except TableError Declaration :=
  image.names.foldlM Declaration.take {}

/-- The versions of the log's format that can be read. -/
def versions : List String := ["3", "4"]

/-- The encoding of a log. -/
def Declaration.readEncoding (declared : Declaration) : Except TableError Encoding :=
  match declared.encoding with
  | none => .error .noEncoding
  | some name =>
    match Encoding.ofName? name with
    | some encoding => .ok encoding
    | none => .error (.unknownEncoding name)

/-! ### Places -/

/-- The last of the statements with a number. -/
def lastOf (statements : List Symbol) (index : Nat) : Option Symbol :=
  statements.reverse.find? (·.index = index)

/-- Whether a statement is in the table: the last with its number says the same. -/
def isLive (statements : List Symbol) (symbol : Symbol) : Bool :=
  match lastOf statements symbol.index with
  | some last => last.kind = symbol.kind && last.text = symbol.text
  | none => false

/-- The places of the statements in the table, each with its number. -/
def places (statements : List Symbol) : List (Nat × Location) :=
  let found := (statements.filter (isLive statements)).filterMap fun symbol =>
    symbol.location.map (symbol.index, ·)
  if (found.map (·.1)).Nodup then found else []

/-! ### Tables -/

/-- What was collected from a log section. -/
structure Collection where
  /-- The statements, without the format of the time stamp. -/
  statements : List Symbol := []
  /-- The text of the time stamp's format. -/
  timestamp : Option String := none
  /-- The flags, each with its group and its number. -/
  flags : List (FlagGroup × Nat × Flag) := []
deriving Repr, DecidableEq

/-- Takes an entry of a log section. -/
def Collection.take (collected : Collection) (entry : Entry) :
    Except TableError Collection := do
  match entry with
  | .unknown cause => throw (.badEntry cause)
  | .flag group number flag =>
    return { collected with flags := collected.flags ++ [(group, number, flag)] }
  | .statement symbol =>
    if symbol.kind ≠ .timestamp then
      return { collected with statements := collected.statements ++ [symbol] }
    else if collected.timestamp.isSome then throw .severalTimestamps
    else return { collected with timestamp := some symbol.text }

/-- The flags of each group, in the order of their numbers. -/
def Collection.groups (collected : Collection) : Flags :=
  ((collected.flags.map (·.1)).eraseDups).map fun group =>
    let own := (collected.flags.filter (·.1 = group)).map (·.2)
    (group, (own.mergeSort fun a b => decide (a.1 ≤ b.1)).map (·.2))

/-- The log statements of an image. -/
structure Table where
  /-- The statements, without the format of the time stamp. -/
  statements : List Symbol
  /-- The text of the time stamp's format. -/
  timestamp : Option String
  /-- The flags. -/
  flags : Flags
  /-- How the frames follow each other. -/
  encoding : Encoding
  /-- Where the statements stand in the source. -/
  places : List (Nat × Location)
deriving Repr, DecidableEq

/-- The table of what was collected. -/
def Collection.table (collected : Collection) (encoding : Encoding) (locatable : Bool) : Table where
  statements := collected.statements
  timestamp := collected.timestamp
  flags := collected.groups
  encoding := encoding
  places := if locatable then Log.places collected.statements else []

/-- The table of an image, `none` when the image has no log. -/
def Table.ofImage? (image : Image) : Except TableError (Option Table) := do
  let declared ← image.declaration
  match image.entries, declared.version with
  | none, none => return none
  | none, some _ => throw .noSection
  | some _, none => throw .noVersion
  | some entries, some version =>
    if version ∉ versions then throw (.unknownVersion version)
    let encoding ← declared.readEncoding
    let collected ← entries.foldlM Collection.take {}
    return some (collected.table encoding image.locatable)

/-- The statement of a number. -/
def Table.statement? (table : Table) (index : Nat) : Option Symbol :=
  lastOf table.statements index

end PolledUart.Log
