import PolledUart.Log.LittleEndian

/-!
# Fields of a file

An object file is a row of bytes in which headers and tables say where other headers and tables
are. A field is read by its place and size, with the lowest or the highest byte first. A field
beyond the end reads as if the file went on with zeros, so a reader asks with `holds` first.
-/

namespace PolledUart.Log

/-- A file whose numbers are written in one order of bytes. -/
structure Fields where
  /-- The bytes of the file. -/
  bytes : List UInt8
  /-- Whether the highest byte of a number comes first. -/
  bigEndian : Bool
deriving Repr, DecidableEq

namespace Fields

/-- Whether a stretch lies within the file. -/
def holds (file : Fields) (place size : Nat) : Bool :=
  decide (place + size ≤ file.bytes.length)

/-- A stretch of the file. -/
def stretch (file : Fields) (place size : Nat) : List UInt8 :=
  (file.bytes.drop place).take size

/-- A stretch of the file, if it lies within it. -/
def stretch? (file : Fields) (place size : Nat) : Option (List UInt8) :=
  if file.holds place size then some (file.stretch place size) else none

/-- The number in some bytes. -/
def number (file : Fields) (place size : Nat) : Nat :=
  let bytes := file.stretch place size
  ofLittleEndian (if file.bigEndian then bytes.reverse else bytes)

/-- A number in one byte. -/
def byte (file : Fields) (place : Nat) : Nat := file.number place 1

/-- A number in two bytes. -/
def half (file : Fields) (place : Nat) : Nat := file.number place 2

/-- A number in four bytes. -/
def word (file : Fields) (place : Nat) : Nat := file.number place 4

/-- A number in four bytes, or in eight where addresses are that wide. -/
def address (file : Fields) (wide : Bool) (place : Nat) : Nat :=
  file.number place (if wide then 8 else 4)

/-- The entries of a table that starts at a place, each by its own place, if all of it lies within
the file. -/
def table? (file : Fields) (place count size : Nat) : Option (List Nat) :=
  if file.holds place (count * size) then some ((List.range count).map (place + size * ·)) else none

end Fields

/-- What comes before the first zero, or everything if there is none. -/
def upToZero (bytes : List UInt8) : List UInt8 :=
  bytes.takeWhile (· ≠ 0)

/-! ### Strings -/

/-- A table of strings, by the place where it starts and the one behind its end. -/
structure Strings where
  start : Nat
  stop : Nat
deriving Repr, DecidableEq

/-- A string in a table. It ends at a zero, which belongs to the table. -/
def Strings.get? (strings : Strings) (file : Fields) (offset : Nat) : Option (List UInt8) :=
  let start := strings.start + offset
  if start ≤ strings.stop ∧ strings.stop ≤ file.bytes.length then
    let rest := file.stretch start (strings.stop - start)
    if rest.any (· = 0) then some (upToZero rest) else none
  else none

end PolledUart.Log
