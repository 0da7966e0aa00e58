import PolledUart.Log.Argument
import PolledUart.Log.Table
import PolledUart.Text.Utf8

/-!
# Log frames

A frame is the number of a statement, the arguments of the time stamp, and the arguments of
the statement. `decode` reads the frames of a log and tells why there is no further one, in one of
two encodings:

* raw frames follow each other, and the log ends where there are too few bytes for the next;
* in the zero-free encoding each frame is packed by `unstuff?` and ends at a zero, and one
  with too few bytes is malformed.

A frame is shown as soon as it is read, before the next one.
-/

namespace PolledUart.Log

/-- Reads a value from the front of some bytes. -/
abbrev Reader := StateT (List UInt8) (Except Fault)

/-! ### Values -/

/-- Takes so many bytes. -/
def takeBytes (count : Nat) : Reader (List UInt8) := fun bytes =>
  if bytes.length < count then .error .short
  else .ok (bytes.take count, bytes.drop count)

/-- Reads an unsigned number of so many bytes. -/
def readUnsigned (bytes : Nat) : Reader Nat := do
  return ofLittleEndian (← takeBytes bytes)

/-- Reads a signed number of so many bytes. -/
def readSigned (bytes : Nat) : Reader Int := do
  return Int.bmod (← readUnsigned bytes) (Nat.pow 0x100 bytes)

/-- Reads the number of a statement. -/
def readIndex : Reader Nat :=
  readUnsigned 2

/-- Reads a truth value. -/
def readBool : Reader Bool := do
  match ← readUnsigned 1 with
  | 0 => return false
  | 1 => return true
  | _ => throw .malformed

/-- Reads a character. -/
def readChar : Reader Char := do
  let n ← readUnsigned 4
  if n.isValidChar then return Char.ofNat n else throw .malformed

/-- Reads bytes with their number in front. -/
def readBytes : Reader (List UInt8) := do
  takeBytes (← readUnsigned 4)

/-- Reads a text. -/
def readText : Reader String := do
  match Text.decode? (← readBytes) with
  | some text => return text
  | none => throw .malformed

/-- The byte that ends a text which the firmware has made itself. -/
def textEnd : UInt8 := 0xff

/-- Reads a text up to the byte that ends it. -/
def readEndedText : Reader String := do
  let bytes ← takeBytes ((← get).takeWhile (· ≠ textEnd)).length
  let _ ← takeBytes 1
  match Text.decode? bytes with
  | some text => return text
  | none => throw .malformed

/-- The number of bytes that are sent for so many: the next power of two. -/
def sentSize (octets : Nat) : Nat :=
  if octets ≤ 2 then octets else if octets ≤ 4 then 4 else if octets ≤ 8 then 8 else 16

/-- Reads the bits of a number from one place up to another. Only the bytes that hold them are
sent. -/
def readBits (low high : Nat) : Reader Nat := do
  let first := low / 8
  return (← readUnsigned (sentSize ((high - 1) / 8 - first + 1))) * Nat.pow 0x100 first

/-! ### Messages -/

/-- The format that a text holds. -/
def readFormat (text : String) : Reader Format :=
  liftM (Format.parse text)

/-- The text of a statement that is part of another one. It has no level. -/
def partText (table : Table) (index : Nat) : Reader String :=
  match table.statement? index with
  | some ⟨.part _, _, text, _⟩ => return text
  | _ => throw .malformed

/-- Reads the number of a statement that is part of another one. -/
def readPart (table : Table) : Reader String := do
  partText table (← readIndex)

/-- The number of bytes in which one of so many is named. -/
def choiceSize (count : Nat) : Nat :=
  if count ≤ 0x100 then 1 else if count ≤ 0x10000 then 2 else 4

/-- Reads which of the variants of a text is meant, if bars divide it into several. -/
def readVariant (text : String) : Reader String := do
  match text.toList.splitOn '|' with
  | [] | [_] => return text
  | variants =>
    match variants[← readUnsigned (choiceSize variants.length)]? with
    | some variant => return String.ofList variant
    | none => throw .malformed

/-- Reads the arguments of a format. -/
abbrev InnerReader := Format → Reader (List Argument)

/-- Reads the message of a statement. -/
def readMessage (inner : InnerReader) (text : String) : Reader Argument := do
  let format ← readFormat (← readVariant text)
  return .message format (← inner format)

/-- Reads so many times the same. -/
def readTimes (read : Reader Argument) : (count : Nat) → Reader (List Argument)
  | 0 => return []
  | count + 1 => return (← read) :: (← readTimes read count)

/-- The least number of messages for which there is no room. -/
def sliceLimit : Nat := 230584300921369396

/-- Reads so many messages of one statement, whose number comes first. -/
def readSlice (table : Table) (inner : InnerReader) (count : Nat) : Reader (List Argument) := do
  if count = 0 then return []
  let text ← readPart table
  if sliceLimit ≤ count then throw .breakdown
  readTimes (readMessage inner text) count

/-- Reads messages up to a zero in the place of a statement's number. -/
def readSequence (table : Table) (inner : InnerReader) : (fuel : Nat) → Reader (List Argument)
  | 0 => throw .short
  | fuel + 1 => do
    match ← readIndex with
    | 0 => return []
    | index => do
      let message ← readMessage inner (← partText table index)
      return message :: (← readSequence table inner fuel)

/-- Reads an argument of a type. `inner` reads the arguments of another statement. -/
def readArgument (table : Table) (inner : InnerReader) : ArgumentType → Reader Argument
  | .unsigned width => return .unsigned (← readUnsigned width.bytes)
  | .signed width => return .signed width (← readSigned width.bytes)
  | .bits low high => return .unsigned (← readBits low high)
  | .bool => return .bool (← readBool)
  | .char => return .char (← readChar)
  | .text => return .text (← readText)
  | .internedText => return .text (← readPart table)
  | .preformatted _ => return .text (← readEndedText)
  | .bytes none => return .bytes (← readBytes)
  | .bytes (some count) => return .bytes (← takeBytes count)
  | .float precision => return .float precision (← readUnsigned precision.bytes)
  | .statement => do readMessage inner (← readPart table)
  | .slice none => do return .slice (← readSlice table inner (← readUnsigned 4))
  | .slice (some count) => return .slice (← readSlice table inner count)
  | .sequence => do return .sequence (← readSequence table inner ((← get).length + 1))

/-- Reads the arguments of a format. Every statement inside another takes two bytes for its
number, so statements nest no deeper than there are bytes. -/
def readArguments (table : Table) : (depth : Nat) → InnerReader
  | 0, _ => throw .short
  | depth + 1, format =>
    format.arguments.mapM (readArgument table (readArguments table depth))

/-- Reads a frame and shows it. -/
def readFrame (table : Table) : Reader Frame := do
  let depth := (← get).length + 1
  let index ← readIndex
  if let some stamp := table.timestamp then
    let _ ← readArguments table depth (← readFormat stamp)
  match table.statement? index with
  | some statement =>
    let format ← readFormat statement.text
    let arguments ← readArguments table depth format
    return ⟨statement.kind.level?, index, ← liftM (format.show table.flags arguments)⟩
  | none => throw .malformed

/-- What is read from a log behind one more frame. -/
def Reading.behind (frame : Frame) (reading : Reading) : Reading :=
  { reading with frames := frame :: reading.frames }

/-! ### Raw frames -/

/-- Reads raw frames, at most `count` of them. -/
def decodeRaw (table : Table) : (count : Nat) → List UInt8 → Reading
  | 0, _ => ⟨[], .short⟩
  | count + 1, bytes =>
    match (readFrame table).run bytes with
    | .error fault => ⟨[], fault⟩
    | .ok (frame, rest) => (decodeRaw table count rest).behind frame

/-! ### Zero-free frames -/

/-- What a control byte says about the bytes in front of it, from right to left: for each
whether it was a zero, which is left out of the frame. -/
def controlPlan (b : UInt8) : List Bool :=
  if b < 0x80 then (List.range 7).map fun i => b.toNat.testBit (6 - i)
  else if b < 0xff then true :: List.replicate (b.toNat % 0x80 + 7) false
  else List.replicate 134 false

/-- Unpacks a frame that is read from right to left. `plan` is what remains of the last
control byte. A frame that ends too early is refused. -/
def unpack? (plan : List Bool) (reversed : List UInt8) : Option (List UInt8) :=
  match plan, reversed with
  | true :: plan, reversed => (0 :: ·) <$> unpack? plan reversed
  | false :: plan, b :: reversed => (b :: ·) <$> unpack? plan reversed
  | false :: _, [] => none
  | [], b :: reversed => unpack? (controlPlan b) reversed
  | [], [] => some []
termination_by (reversed.length, plan.length)

/-- The content of a frame. -/
def unstuff? (frame : List UInt8) : Option (List UInt8) :=
  List.reverse <$> unpack? [] frame.reverse

/-- The frames of a log, each behind the last zero and up to the next. What follows the last
zero is no frame yet. -/
def zeroFreeFrames (bytes : List UInt8) : List (List UInt8) :=
  (bytes.splitOn 0).dropLast.filter (!·.isEmpty)

/-- Reads a frame from its packed form. Bytes that the statement does not need are ignored. -/
def decodeFrame (table : Table) (frame : List UInt8) : Except Fault Frame :=
  match unstuff? frame with
  | none => .error .malformed
  | some content =>
    match (readFrame table).run content with
    | .ok (frame, _) => .ok frame
    | .error .short => .error .malformed
    | .error fault => .error fault

/-- Reads frames from their packed forms. -/
def decodeFrames (table : Table) : List (List UInt8) → Reading
  | [] => ⟨[], .short⟩
  | packed :: rest =>
    match decodeFrame table packed with
    | .error fault => ⟨[], fault⟩
    | .ok frame => (decodeFrames table rest).behind frame

/-! ### Logs -/

/-- Reads a log. A frame takes two bytes at the least, so there are fewer frames than bytes. -/
def decode (table : Table) (bytes : List UInt8) : Reading :=
  match table.encoding with
  | .raw => decodeRaw table (bytes.length + 1) bytes
  | .rzcobs => decodeFrames table (zeroFreeFrames bytes)

end PolledUart.Log
