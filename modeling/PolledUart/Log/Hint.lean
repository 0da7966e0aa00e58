import PolledUart.Log.Clock
import PolledUart.Log.Fault
import PolledUart.Log.Flags

/-!
# Display hints

Behind the colon of a hole stands a hint that says how its value is shown: a number in another
base, filled up with zeros, as a time or as flags, and a text in quotes. A hint that is not
understood shows a number in decimal.
-/

namespace PolledUart.Log

/-- A base, other than ten, in which numbers are shown. -/
inductive Base where
  | binary
  | octal
  | lowerHex
  | upperHex
deriving Repr, DecidableEq

/-- How a value is shown. A kind of value that a hint does not fit ignores it. -/
inductive Hint where
  /-- A number in decimal, filled up with zeros to a width. -/
  | decimal (width : Nat)
  /-- A number in another base, with or without a mark for it, filled up with zeros. -/
  | based (base : Base) (marked : Bool) (width : Nat)
  /-- A count as seconds. -/
  | seconds (unit : TimeUnit)
  /-- A count as a time of day. -/
  | clock (unit : TimeUnit)
  /-- A count as a date. -/
  | date (unit : TimeUnit)
  /-- Bytes as characters. -/
  | ascii
  /-- A text in quotes. -/
  | quoted
  /-- Bytes as the data item that they encode. -/
  | cbor
  /-- A number as a set of flags. -/
  | flags (group : FlagGroup)
deriving Repr, DecidableEq

/-! ### Reading a hint -/

/-- The number that some digits write, if there are any. -/
def number? (digits : List Char) : Option Nat :=
  if digits.isEmpty then none
  else some (digits.foldl (fun n c => 10 * n + (c.toNat - '0'.toNat)) 0)

/-- The number that some digits write, if there are any and if it fits in an address of eight
bytes. -/
def size? (digits : List Char) : Option Nat := do
  let n ← number? digits
  if n < 0x10000000000000000 then some n else none

/-- What stands in front of the names of a group of flags. -/
def flagMark : List Char := "__internal_bitflags_".toList

/-- The group that some names tell. -/
def FlagGroup.ofNames? (names : List Char) : Option FlagGroup :=
  match (names.splitOn '@').map String.ofList with
  | [name, package, disambiguator] => some ⟨name, package, disambiguator, none⟩
  | [name, package, disambiguator, library] =>
    some ⟨name, package, disambiguator, some library⟩
  | _ => none

/-- The hint of a name, with what stands in front of it. -/
def Hint.ofName? (marked : Bool) (width : Nat) (name : List Char) : Option Hint :=
  match String.ofList name with
  | "" => some (.decimal width)
  | "b" => some (.based .binary marked width)
  | "o" => some (.based .octal marked width)
  | "x" => some (.based .lowerHex marked width)
  | "X" => some (.based .upperHex marked width)
  | "us" => some (.seconds .microsecond)
  | "ms" => some (.seconds .millisecond)
  | "tus" => some (.clock .microsecond)
  | "tms" => some (.clock .millisecond)
  | "ts" => some (.clock .second)
  | "iso8601ms" => some (.date .millisecond)
  | "iso8601s" => some (.date .second)
  | "a" => some .ascii
  | "?" => some .quoted
  | "cbor" => some .cbor
  | _ =>
    if flagMark.isPrefixOf name then
      .flags <$> FlagGroup.ofNames? (name.drop flagMark.length)
    else none

/-- The hint behind an optional width, which starts with a zero. -/
def Hint.ofWidthAndName? (marked : Bool) : List Char → Option Hint
  | '0' :: rest => do
    let width ← size? (rest.takeWhile Char.isDigit)
    ofName? marked width (rest.dropWhile Char.isDigit)
  | name => ofName? marked 0 name

/-- The hint that is written behind a colon. -/
def Hint.parse (text : List Char) : Hint :=
  let hint := match text with
    | '#' :: rest => ofWidthAndName? true rest
    | rest => ofWidthAndName? false rest
  hint.getD (.decimal 0)

/-! ### Showing numbers -/

/-- The digits of a number. -/
def Base.digits (base : Base) (n : Nat) : List Char :=
  match base with
  | .binary => Nat.toDigits 2 n
  | .octal => Nat.toDigits 8 n
  | .lowerHex => Nat.toDigits 16 n
  | .upperHex => (Nat.toDigits 16 n).map Char.toUpper

/-- The mark of a base. -/
def Base.mark : Base → List Char
  | .binary => ['0', 'b']
  | .octal => ['0', 'o']
  | .lowerHex => ['0', 'x']
  | .upperHex => ['0', 'x']

/-- Digits behind a mark or sign, which counts as part of the width. -/
def fill (mark : List Char) (width : Nat) (digits : List Char) : String :=
  String.ofList (mark ++ List.replicate (width - mark.length - digits.length) '0' ++ digits)

/-- The greatest width to which a number can be filled up. -/
def maxWidth : Nat := 0xffff

/-- A number in another base. -/
def Base.show (base : Base) (marked : Bool) (width n : Nat) : Except Fault String :=
  if maxWidth < width then .error .breakdown
  else .ok (fill (if marked then base.mark else []) width (base.digits n))

/-- A number in decimal. -/
def showDecimal (width : Nat) (i : Int) : Except Fault String :=
  if maxWidth < width then .error .breakdown
  else .ok (fill (if i < 0 then ['-'] else []) width (Nat.toDigits 10 i.natAbs))

/-- Shows a number that is not negative. -/
def showNat (flags : Flags) (hint : Option Hint) (n : Nat) : Except Fault String :=
  match hint with
  | some (.decimal width) => showDecimal width n
  | some (.based base marked width) => base.show marked width n
  | some (.seconds unit) => .ok (unit.showSeconds n)
  | some (.clock unit) => .ok (unit.showClock n)
  | some (.flags group) =>
    match flags.lookup group with
    | some known => .ok (showFlags known n)
    | none => .ok (toString n)
  | _ => .ok (toString n)

/-- The greatest count, and one more, of which a date can be told. -/
def dateLimit : Nat := 0x10000000000000000

/-- Shows an unsigned number by the hint of its own hole, or else by the outer one. A hint for
quotes leaves it to the outer one, and a date is that of the lowest eight bytes. -/
def showUnsigned (flags : Flags) (outer own : Option Hint) (n : Nat) : Except Fault String :=
  match own <|> outer with
  | some (.date unit) =>
    match unit.showDate? (n % dateLimit) with
    | some date => .ok date
    | none => .error .breakdown
  | some .quoted => showNat flags outer n
  | hint => showNat flags hint n

/-- The number of bytes that a signed number has when it is shown in a base: sixteen in bits and
octal digits, and in the others as many as it is wide, unless it is as wide as an address. -/
def Base.complementSize (base : Base) (size : Option Nat) : Except Fault Nat :=
  match base, size with
  | .binary, _ => .ok 16
  | .octal, _ => .ok 16
  | .lowerHex, some size => .ok size
  | .upperHex, some size => .ok size
  | .lowerHex, none => .error .breakdown
  | .upperHex, none => .error .breakdown

/-- Shows a signed number of so many bytes, or of an address if that is not told. In another base
a negative one is its complement. -/
def showSigned (hint : Option Hint) (size : Option Nat) (i : Int) : Except Fault String :=
  match hint with
  | some (.decimal width) => showDecimal width i
  | some (.based base marked width) => do
    let bytes ← base.complementSize size
    base.show marked width (i % (Nat.pow 0x100 bytes : Nat)).toNat
  | _ => .ok (toString i)

end PolledUart.Log
