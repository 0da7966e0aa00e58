import PolledUart.Log.Floating
import PolledUart.Log.LittleEndian
import PolledUart.Text.Utf8

/-!
# Concise binary objects

Bytes may hold a data item: a number, a string, an array or map of items, an item behind a tag,
or a simple value. It is shown in diagnostic notation, which reads like an object in a text. An
item that is written longer than need be is marked by how long it is.

Every item starts with a head of one byte, of which three bits tell the kind of the item, and
the number that follows in or behind the other five.
-/

namespace PolledUart.Log.Cbor

/-- Why bytes hold no item. -/
inductive Defect where
  /-- They end within it. -/
  | short
  /-- A head is none of those that are in use. -/
  | badHead
  /-- A text is not encoded as texts are. -/
  | badText
  /-- There are bytes behind the item. -/
  | extra
deriving Repr, DecidableEq

/-- The wording of a defect. -/
def Defect.message : Defect → String
  | .short => "Unexpected end of data"
  | .badHead => "Reserved additional information"
  | .badText => "Text string is not valid UTF-8"
  | .extra => "Data after item"

/-- Reads a part of an item from the front of some bytes. -/
abbrev Reader := StateT (List UInt8) (Except Defect)

/-- Takes so many bytes. -/
def take (count : Nat) : Reader (List UInt8) := fun bytes =>
  if bytes.length < count then .error .short
  else .ok (bytes.take count, bytes.drop count)

/-- Reads a number of so many bytes, of which the highest comes first. -/
def readNat (count : Nat) : Reader Nat := do
  return ofLittleEndian (← take count).reverse

/-! ### Heads -/

/-- How the number of a head is written. -/
inductive Length where
  /-- In the head itself. -/
  | immediate
  /-- Behind the head, in two to this power bytes. -/
  | behind (power : Nat)
  /-- Not at all: the item ends at a break. -/
  | unbounded
deriving Repr, DecidableEq

/-- The start of an item. -/
structure Head where
  /-- The kind of the item. -/
  major : Nat
  /-- How the number is written. -/
  length : Length
  /-- The number. -/
  number : Nat
deriving Repr, DecidableEq

/-- Reads a head. -/
def readHead : Reader Head := do
  let first ← readNat 1
  let major := first / 0x20
  let info := first % 0x20
  if info < 24 then return ⟨major, .immediate, info⟩
  else if info < 28 then
    return ⟨major, .behind (info - 24), ← readNat (Nat.pow 2 (info - 24))⟩
  else if info = 31 then return ⟨major, .unbounded, 0⟩
  else throw .badHead

/-- The power of the fewest bytes in which a number can be written behind a head. -/
def leastLength (n : Nat) : Length :=
  if n < 24 then .immediate
  else if n < 0x100 then .behind 0
  else if n < 0x10000 then .behind 1
  else if n < 0x100000000 then .behind 2
  else .behind 3

/-- The mark of a length, where it is not the least. -/
def mark (length least : Length) : String :=
  match length with
  | .immediate => ""
  | .behind power => if length = least then "" else "_" ++ toString power
  | .unbounded => "_"

/-- The mark of a head. -/
def Head.mark (head : Head) : String :=
  Cbor.mark head.length (leastLength head.number)

/-! ### Single items -/

/-- A byte in two digits. -/
def showByte (b : UInt8) : List Char :=
  Nat.toDigits 16 (b.toNat / 0x10) ++ Nat.toDigits 16 (b.toNat % 0x10)

/-- A string of bytes. -/
def showBytes (bytes : List UInt8) : String :=
  "h'" ++ String.ofList (bytes.flatMap showByte) ++ "'"

/-- A character of a text. -/
def showCharacter (c : Char) : List Char :=
  if c = '"' then ['\\', '"']
  else if c = '\\' then ['\\', '\\']
  else if c = '\n' then ['\\', 'n']
  else if c = '\r' then ['\\', 'r']
  else if c = '\t' then ['\\', 't']
  else [c]

/-- A text. -/
def showText (text : String) : String :=
  "\"" ++ String.ofList (text.toList.flatMap showCharacter) ++ "\""

/-- The bits of a number of double precision that stand for those of one with so many bits of
exponent and fraction. -/
def widen (exponentBits fractionBits bits : Nat) : Nat :=
  let fraction := bits % Nat.pow 2 fractionBits
  let above := bits / Nat.pow 2 fractionBits
  let special := Nat.pow 2 exponentBits - 1
  let exponent := above % (special + 1)
  let sign := above / (special + 1)
  let shifted := fraction * Nat.pow 2 (52 - fractionBits)
  let rebias := 1023 - (special / 2)
  let (exponent, fraction) :=
    if exponent = special then (0x7ff, shifted)
    else if exponent ≠ 0 then (exponent + rebias, shifted)
    else if fraction = 0 then (0, 0)
    else
      let up := fractionBits - Nat.log2 fraction
      (rebias + 1 - up, (shifted * Nat.pow 2 up) % Nat.pow 2 52)
  (sign * 0x800 + exponent) * Nat.pow 2 52 + fraction

/-- A floating-point number of double precision. -/
def showDouble (bits : Nat) : String :=
  match Precision.double.show bits with
  | "inf" => "Infinity"
  | "-inf" => "-Infinity"
  | text => text

/-- Whether a number of double precision keeps its value with so many bits of exponent and
fraction. Below the least exponent every halving takes one more bit of the fraction. -/
def isKept (exponentBits fractionBits bits : Nat) : Bool :=
  let fraction := bits % Nat.pow 2 52
  let exponent := bits / Nat.pow 2 52 % 0x800
  let bias := Nat.pow 2 (exponentBits - 1) - 1
  let lost := 52 - fractionBits
  if exponent = 0x7ff ∨ exponent = 0 ∧ fraction = 0 then fraction % Nat.pow 2 lost = 0
  else
    let below := 1024 - bias - exponent
    exponent ≤ 1023 + bias && lost + below ≤ 52
      && (Nat.pow 2 52 + fraction) % Nat.pow 2 (lost + below) = 0

/-- The power of the fewest bytes in which a number of double precision keeps its value. -/
def leastFloat (bits : Nat) : Nat :=
  if isKept 5 10 bits then 1 else if isKept 8 23 bits then 2 else 3

/-- A simple value or a floating-point number. -/
def showSimple (head : Head) : String :=
  match head.length, head.number with
  | .behind 1, bits => float (widen 5 10 bits) 1
  | .behind 2, bits => float (widen 8 23 bits) 2
  | .behind 3, bits => float bits 3
  | _, 20 => "false"
  | _, 21 => "true"
  | _, 22 => "null"
  | _, 23 => "undefined"
  | _, n => "simple(" ++ toString n ++ ")"
where
  /-- A floating-point number with the mark of its length. -/
  float (bits power : Nat) : String :=
    showDouble bits ++ mark (.behind power) (.behind (leastFloat bits))

/-! ### Items -/

/-- Reads the string behind a head. -/
def readString (head : Head) : Reader String := do
  let bytes ← take head.number
  if head.major = 2 then return showBytes bytes ++ head.mark
  else
    match Text.decode? bytes with
    | some text => return showText text ++ head.mark
    | none => throw .badText

/-- Whether a break comes next. -/
def atBreak : Reader Bool := do
  return (← get).head? = some 0xff

/-- Reads so many parts or, if their number is not told, those up to a break. -/
def readParts (read : Reader String) (count : Option Nat) : (fuel : Nat) → Reader (List String)
  | 0 => throw .short
  | fuel + 1 => do
    if count = some 0 then return []
    else if count.isNone && (← atBreak) then
      let _ ← take 1
      return []
    else return (← read) :: (← readParts read (count.map (· - 1)) fuel)

/-- Parts between brackets, with a mark behind the first. -/
def bracketed (left right mark : String) (parts : List String) : String :=
  left ++ (if mark = "" then "" else if parts.isEmpty then mark else mark ++ " ")
    ++ ", ".intercalate parts ++ right

/-- Reads an item. Items nest no deeper than there are bytes. -/
def readItem : (fuel : Nat) → Reader String
  | 0 => throw .short
  | fuel + 1 => do
    let head ← readHead
    let count := if head.length = .unbounded then none else some head.number
    let parts (read : Reader String) := readParts read count (fuel + 1)
    match head.major, head.length with
    | 2, .unbounded => return bracketed "(" ")" "_" (← parts (readChunk 2))
    | 3, .unbounded => return bracketed "(" ")" "_" (← parts (readChunk 3))
    | 2, _ => readString head
    | 3, _ => readString head
    | 4, _ => return bracketed "[" "]" head.mark (← parts (readItem fuel))
    | 5, _ => return bracketed "\x7b" "\x7d" head.mark (← parts do
        return (← readItem fuel) ++ ": " ++ (← readItem fuel))
    | _, .unbounded => throw .badHead
    | 0, _ => return toString head.number ++ head.mark
    | 1, _ => return "-" ++ toString (head.number + 1) ++ head.mark
    | 6, _ => return toString head.number ++ head.mark ++ "(" ++ (← readItem fuel) ++ ")"
    | _, _ => return showSimple head
where
  /-- Reads a part of a string that is open. -/
  readChunk (major : Nat) : Reader String := do
    let head ← readHead
    if head.major = major ∧ head.length ≠ .unbounded then readString head else throw .badHead

/-- The diagnostic notation of the item that bytes hold. -/
def notation? (bytes : List UInt8) : Except Defect String := do
  let (text, rest) ← (readItem (bytes.length + 1)).run bytes
  if rest.isEmpty then return text else throw .extra

/-- Shows bytes as the item that they hold or, if they hold none, as they are. -/
def showItem (bytes : List UInt8) : String :=
  match notation? bytes with
  | .ok text => text
  | .error defect =>
    "invalid CBOR (error: " ++ defect.message ++ ", bytes: ["
      ++ ", ".intercalate (bytes.map fun b => String.ofList (showByte b)) ++ "])"

end PolledUart.Log.Cbor
