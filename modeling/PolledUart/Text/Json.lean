import PolledUart.Text.Escape
import PolledUart.Text.Utf8

/-!
# Records in JSON

A JSON text is read from left to right, and the first thing that is not as it should be is told
with its line and column. What is wanted of such a text here is a record of strings: an object
in which some names have strings, and whatever else it holds is of no interest.

`Json.Reader` keeps the bytes on both sides of the place where it reads, so that each fault knows
its own place.
-/

namespace PolledUart.Text.Json

/-! ### Places and faults -/

/-- What is wrong with a text. -/
structure Fault where
  /-- The wording. -/
  text : String
  /-- The line, counted from one. -/
  line : Nat
  /-- The number of bytes in the line up to the fault. -/
  column : Nat
deriving Repr, DecidableEq

/-- The wording of a fault with its place. -/
def Fault.message (fault : Fault) : String :=
  fault.text ++ " at line " ++ toString fault.line ++ " column " ++ toString fault.column

/-- A place in a text: the bytes in front of it, the last one first, and those behind it. -/
structure Place where
  past : List UInt8
  rest : List UInt8
deriving Repr, DecidableEq

/-- The line feed, which ends a line. -/
def lineEnd : UInt8 := 0x0a

/-- A fault behind some bytes, of which the last is given first. -/
def Fault.behind (text : String) (past : List UInt8) : Fault :=
  ⟨text, past.count lineEnd + 1, (past.takeWhile (· ≠ lineEnd)).length⟩

/-- Reads something at a place and moves on. -/
abbrev Reader := StateT Place (Except Fault)

/-- Fails with what was read. -/
def fail {α : Type} (text : String) : Reader α := fun place =>
  .error (.behind text place.past)

/-- Fails with what comes next. -/
def failNext {α : Type} (text : String) : Reader α := fun place =>
  .error (.behind text (place.rest.take 1 ++ place.past))

/-- What comes next, if anything does. -/
def peek : Reader (Option UInt8) := do
  return (← get).rest.head?

/-- Takes what comes next. -/
def next : Reader (Option UInt8) := do
  match ← get with
  | ⟨past, b :: rest⟩ => set (Place.mk (b :: past) rest); return some b
  | ⟨_, []⟩ => return none

/-- Whether a byte is a blank. -/
def isBlank (b : UInt8) : Bool := b = 0x20 || b = 0x0a || b = 0x09 || b = 0x0d

/-- Skips blanks, and tells what comes next. -/
def peekPastBlanks : Reader (Option UInt8) := do
  modify fun place =>
    ⟨(place.rest.takeWhile isBlank).reverse ++ place.past, place.rest.dropWhile isBlank⟩
  peek

/-! ### Strings -/

/-- The number that a hexadecimal digit stands for. -/
def hexDigit? (b : UInt8) : Option Nat :=
  let n := b.toNat
  if 0x30 ≤ n ∧ n ≤ 0x39 then some (n - 0x30)
  else if 0x41 ≤ n ∧ n ≤ 0x46 then some (n - 0x37)
  else if 0x61 ≤ n ∧ n ≤ 0x66 then some (n - 0x57)
  else none

/-- What is wrong with a string that does not end. -/
def stringEnd : String := "EOF while parsing a string"

/-- Reads four hexadecimal digits. -/
def readHex : Reader Nat := do
  let place ← get
  if place.rest.length < 4 then
    set (Place.mk (place.rest.reverse ++ place.past) [])
    fail stringEnd
  else
    let digits := place.rest.take 4
    set (Place.mk (digits.reverse ++ place.past) (place.rest.drop 4))
    match digits.mapM hexDigit? with
    | some digits => return digits.foldl (0x10 * · + ·) 0
    | none => fail "invalid escape"

/-- Takes a byte that must come next within an escape. -/
def expectInEscape (b : UInt8) : Reader Unit := do
  match ← next with
  | none => fail stringEnd
  | some c => unless c = b do fail "unexpected end of hex escape"

/-- Reads the character behind an escaped `u`. One that takes two escapes is put together. -/
def readUnicode : Reader Char := do
  let high ← readHex
  if 0xdc00 ≤ high ∧ high ≤ 0xdfff then fail "lone leading surrogate in hex escape"
  else if high < 0xd800 ∨ 0xdbff < high then return Char.ofNat high
  else
    expectInEscape 0x5c
    expectInEscape 0x75
    let low ← readHex
    if low < 0xdc00 ∨ 0xdfff < low then fail "lone leading surrogate in hex escape"
    else return Char.ofNat (0x10000 + (high - 0xd800) * 0x400 + (low - 0xdc00))

/-- Reads what is escaped by a backslash. -/
def readEscape : Reader (List UInt8) := do
  match ← next with
  | none => fail stringEnd
  | some 0x22 => return [0x22]
  | some 0x5c => return [0x5c]
  | some 0x2f => return [0x2f]
  | some 0x62 => return [0x08]
  | some 0x66 => return [0x0c]
  | some 0x6e => return [0x0a]
  | some 0x72 => return [0x0d]
  | some 0x74 => return [0x09]
  | some 0x75 => return encode (← readUnicode).toString
  | some _ => fail "invalid escape"

/-- Reads a string behind its first quote. `fuel` bounds its bytes. -/
def readBytes : (fuel : Nat) → Reader (List UInt8)
  | 0 => fail stringEnd
  | fuel + 1 => do
    match ← next with
    | none => fail stringEnd
    | some 0x22 => return []
    | some 0x5c => return (← readEscape) ++ (← readBytes fuel)
    | some b =>
      if b < 0x20 then fail "control character (\\u0000-\\u001F) found while parsing a string"
      else return b :: (← readBytes fuel)

/-- Reads a string behind its first quote. -/
def readString : Reader String := do
  return decodeLossy (← readBytes ((← get).rest.length + 1))

/-! ### Other values -/

/-- Reads the rest of a word. -/
def readWord (word : String) : Reader Unit :=
  (encode word).forM fun b => do
    match ← next with
    | none => fail "EOF while parsing a value"
    | some c => unless c = b do fail "expected ident"

/-- Whether a byte is a decimal digit. -/
def isDigit (b : UInt8) : Bool := 0x30 ≤ b && b ≤ 0x39

/-- Takes the digits that come next. -/
def readDigits : Reader (List UInt8) := do
  let place ← get
  let digits := place.rest.takeWhile isDigit
  set (Place.mk (digits.reverse ++ place.past) (place.rest.dropWhile isDigit))
  return digits

/-- Takes the digits that must come next. -/
def needDigits : Reader (List UInt8) := do
  match ← peek with
  | none => failNext "EOF while parsing a value"
  | some b => if isDigit b then readDigits else failNext "invalid number"

/-- Takes a byte if it comes next. -/
def takeIf (test : UInt8 → Bool) : Reader (List UInt8) := do
  match ← peek with
  | some b => if test b then do let _ ← next; return [b] else return []
  | none => return []

/-- Reads a number behind its sign, and tells how it is written and whether it is whole. -/
def readNumber : Reader (List UInt8 × Bool) := do
  let whole ← needDigits
  if whole.head? = some 0x30 ∧ 1 < whole.length then
    modify fun place =>
      ⟨(whole.take 1) ++ place.past.drop whole.length, whole.drop 1 ++ place.rest⟩
    failNext "invalid number"
  else
    let point ← takeIf (· = 0x2e)
    let fraction ← if point.isEmpty then pure [] else needDigits
    let mark ← takeIf fun b => b = 0x65 || b = 0x45
    let sign ← if mark.isEmpty then pure [] else takeIf fun b => b = 0x2b || b = 0x2d
    let exponent ← if mark.isEmpty then pure [] else needDigits
    return (whole ++ point ++ fraction ++ mark ++ sign ++ exponent, point.isEmpty && mark.isEmpty)

/-- The wording of a number. -/
def nameNumber (sign : List UInt8) (number : List UInt8 × Bool) : String :=
  (if number.2 then "integer" else "floating point") ++ " `" ++ decodeLossy (sign ++ number.1)
    ++ "`"

/-- Reads a single value and tells what it is. A value with parts is not entered. -/
def nameValue : Reader String := do
  match ← peek with
  | some 0x6e => let _ ← next; readWord "ull"; return "null"
  | some 0x74 => let _ ← next; readWord "rue"; return "boolean `true`"
  | some 0x66 => let _ ← next; readWord "alse"; return "boolean `false`"
  | some 0x2d => let _ ← next; return nameNumber [0x2d] (← readNumber)
  | some 0x22 => let _ ← next; return "string " ++ quote (← readString)
  | some 0x5b => return "sequence"
  | some 0x7b => return "map"
  | some b => if isDigit b then return nameNumber [] (← readNumber) else failNext "expected value"
  | none => failNext "EOF while parsing a value"

/-- Fails with a value in the place of another one. -/
def failValue {α : Type} (expected : String) : Reader α := do
  fail ("invalid type: " ++ (← nameValue) ++ ", expected " ++ expected)

/-- Reads a string. -/
def readText : Reader String := do
  match ← peekPastBlanks with
  | none => failNext "EOF while parsing a value"
  | some 0x22 => let _ ← next; readString
  | some _ => failValue "a string"

/-- Reads a string that may be left open. -/
def readText? : Reader (Option String) := do
  match ← peekPastBlanks with
  | some 0x6e => let _ ← next; readWord "ull"; return none
  | _ => return some (← readText)

/-! ### Parts -/

/-- What comes next among the parts of a value. -/
inductive Step where
  /-- Another part. -/
  | part
  /-- The end of the value. -/
  | done
deriving Repr, DecidableEq

/-- Looks for another name in an object, of which some were read before. -/
def stepObject (isFirst : Bool) : Reader Step := do
  let after ← match ← peekPastBlanks with
    | some 0x7d => return .done
    | none => failNext "EOF while parsing an object"
    | some 0x2c =>
      if isFirst then pure (some 0x2c) else do
        let _ ← next
        peekPastBlanks
    | some b => if isFirst then pure (some b) else failNext "expected `,` or `\x7d`"
  match after with
  | some 0x22 => return .part
  | some 0x7d => failNext "trailing comma"
  | some _ => failNext "key must be a string"
  | none => failNext "EOF while parsing a value"

/-- Looks for another value in an array, of which some were read before. -/
def stepArray (isFirst : Bool) : Reader Step := do
  match ← peekPastBlanks with
  | some 0x5d => return .done
  | none => failNext "EOF while parsing a list"
  | some b =>
    if isFirst then return .part
    else if b ≠ 0x2c then failNext "expected `,` or `]`"
    else do
      let _ ← next
      match ← peekPastBlanks with
      | some 0x5d => failNext "trailing comma"
      | none => failNext "EOF while parsing a value"
      | some _ => return .part

/-- Reads the colon behind a name. -/
def readColon : Reader Unit := do
  match ← peekPastBlanks with
  | some 0x3a => let _ ← next
  | some _ => failNext "expected `:`"
  | none => failNext "EOF while parsing an object"

/-- Skips a value with all its parts. `fuel` bounds their number and how deep they nest. -/
def skip : (fuel : Nat) → Reader Unit
  | 0 => failNext "EOF while parsing a value"
  | fuel + 1 => do
    match ← peekPastBlanks with
    | some 0x5b => let _ ← next; skipArray fuel true
    | some 0x7b => let _ ← next; skipObject fuel true
    | _ => let _ ← nameValue
where
  /-- Skips the rest of an array. -/
  skipArray : (fuel : Nat) → Bool → Reader Unit
    | 0, _ => failNext "EOF while parsing a list"
    | fuel + 1, isFirst => do
      match ← stepArray isFirst with
      | .done => let _ ← next
      | .part => skip fuel; skipArray fuel false
  /-- Skips the rest of an object. -/
  skipObject : (fuel : Nat) → Bool → Reader Unit
    | 0, _ => failNext "EOF while parsing an object"
    | fuel + 1, isFirst => do
      match ← stepObject isFirst with
      | .done => let _ ← next
      | .part => let _ ← next; let _ ← readString; readColon; skip fuel; skipObject fuel false

/-! ### Records -/

/-- What a record is called, and the names of its strings; the last of them may be left out. -/
structure Shape where
  /-- What the record is called. -/
  name : String
  /-- The names of the strings that it has. -/
  required : List String
  /-- The name of the string that it may have. -/
  optional : String
deriving Repr, DecidableEq

/-- A record: its strings by their names. -/
abbrev Record := List (String × Option String)

/-- Reads the value of a name. -/
def Shape.readValue (shape : Shape) (name : String) : Reader Record := do
  if name ∈ shape.required then return [(name, some (← readText))]
  else if name = shape.optional then return [(name, ← readText?)]
  else do
    skip ((← get).rest.length + 1)
    return []

/-- Reads the rest of an object as a record. -/
def Shape.readObject (shape : Shape) : (fuel : Nat) → Record → Reader Record
  | 0, _ => failNext "EOF while parsing an object"
  | fuel + 1, record => do
    match ← stepObject false with
    | .done => return record
    | .part =>
      let _ ← next
      let name ← readString
      if (record.lookup name).isSome then
        let _ ← peekPastBlanks
        fail ("duplicate field `" ++ name ++ "`")
      readColon
      shape.readObject fuel (record ++ (← shape.readValue name))

/-- Reads an object as a record. -/
def Shape.readFirst (shape : Shape) : Reader Record := do
  match ← stepObject true with
  | .done => return []
  | .part =>
    let _ ← next
    let name ← readString
    readColon
    let first ← shape.readValue name
    shape.readObject ((← get).rest.length + 1) first

/-- Reads an array as a record: its strings in the order of their names. -/
def Shape.readArray (shape : Shape) : List String → (count : Nat) → Reader Record
  | [], _ => return []
  | name :: names, count => do
    match ← stepArray (count = 0) with
    | .done =>
      let _ ← next
      fail ("invalid length " ++ toString count ++ ", expected struct " ++ shape.name ++ " with "
        ++ toString (shape.required.length + 1) ++ " elements")
    | .part =>
      let value ← if name = shape.optional then readText? else some <$> readText
      return (name, value) :: (← shape.readArray names (count + 1))

/-- Reads a record. -/
def Shape.readRecord (shape : Shape) : Reader Record := do
  match ← peekPastBlanks with
  | none => failNext "EOF while parsing a value"
  | some 0x7b =>
    let _ ← next
    let record ← shape.readFirst
    let _ ← next
    match shape.required.find? fun name => (record.lookup name).isNone with
    | some name => fail ("missing field `" ++ name ++ "`")
    | none => return record
  | some 0x5b =>
    let _ ← next
    let record ← shape.readArray (shape.required ++ [shape.optional]) 0
    match ← peekPastBlanks with
    | some 0x5d => let _ ← next; return record
    | some 0x2c =>
      let _ ← next
      match ← peekPastBlanks with
      | some 0x5d => failNext "trailing comma"
      | _ => failNext "trailing characters"
    | some _ => failNext "trailing characters"
    | none => failNext "EOF while parsing a list"
  | some _ => failValue ("struct " ++ shape.name)

/-- The record that a text holds, and nothing besides. -/
def Shape.parse (shape : Shape) (text : String) : Except Fault Record := do
  let read : Reader Record := do
    let record ← shape.readRecord
    match ← peekPastBlanks with
    | none => return record
    | some _ => failNext "trailing characters"
  let (record, _) ← read.run ⟨[], encode text⟩
  return record

end PolledUart.Text.Json
