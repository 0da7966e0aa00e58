import PolledUart.Log.Cbor
import PolledUart.Log.Format
import PolledUart.Text.Escape

/-!
# Arguments

The values that fill the holes of a message, and the text of a message with its holes filled.
A hole shows its argument by its own hint or, if it has none, by the hint of the hole that the
whole message fills.
-/

namespace PolledUart.Log

/-- A value that was read for an argument. -/
inductive Argument where
  /-- An unsigned number. -/
  | unsigned (n : Nat)
  /-- A signed number of a width. -/
  | signed (width : Width) (i : Int)
  /-- A truth value. -/
  | bool (b : Bool)
  /-- A character. -/
  | char (c : Char)
  /-- A text. -/
  | text (t : String)
  /-- Bytes. -/
  | bytes (b : List UInt8)
  /-- The bits of a floating-point number. -/
  | float (precision : Precision) (bits : Nat)
  /-- A message with its own arguments. -/
  | message (format : Format) (arguments : List Argument)
  /-- Messages of one statement. -/
  | slice (messages : List Argument)
  /-- Messages that follow each other without a break. -/
  | sequence (messages : List Argument)

/-! ### Showing values -/

/-- A byte among characters. -/
def showCharacter (b : UInt8) : String :=
  if b = 0x09 then "\\t"
  else if b = 0x0a then "\\n"
  else if b = 0x0d then "\\r"
  else if b = 0x22 then "\\\""
  else if b = 0x5c then "\\\\"
  else if 0x20 ≤ b ∧ b < 0x7f then (Char.ofNat b.toNat).toString
  else "\\x" ++ fill [] 2 (Nat.toDigits 16 b.toNat)

/-- Texts as a list. -/
def bracketed (texts : List String) : String :=
  "[" ++ ", ".intercalate texts ++ "]"

/-- Bytes as characters. -/
def showCharacters (bytes : List UInt8) : String :=
  "b\"" ++ String.join (bytes.map showCharacter) ++ "\""

/-- Shows bytes. -/
def showBytes (hint : Option Hint) (bytes : List UInt8) : Except Fault String :=
  match hint with
  | some .ascii => .ok (showCharacters bytes)
  | some .cbor => .ok (Cbor.showItem bytes)
  | some (.based base marked width) =>
    bracketed <$> bytes.mapM fun b => base.show marked width b.toNat
  | _ => .ok (bracketed (bytes.map fun b => toString b.toNat))

/-- Shows the bits that a hole asks for, of an argument that may have more. -/
def showBits (flags : Flags) (hint : Option Hint) (low high n : Nat) : Except Fault String :=
  let bits := n % Nat.pow 2 high / Nat.pow 2 low
  match hint with
  | some .ascii =>
    let octets := 16 - (128 - high + low) / 8
    .ok (showCharacters ((List.range octets).reverse.map fun i =>
      UInt8.ofNat (bits / Nat.pow 0x100 i)))
  | _ => showNat flags hint bits

/-- Shows a text. -/
def showText (hint : Option Hint) (t : String) : String :=
  if hint = some .quoted then Text.quote t else t

/-- The number of bytes of a width, unless it is that of an address. -/
def Width.ownBytes? : Width → Option Nat
  | .address => none
  | width => some width.bytes

/-! ### Filling holes -/

/-- Shows a value in a hole of a type, by the outer hint and that of the hole. -/
abbrev Filling := (type : ArgumentType) → (outer own : Option Hint) → Except Fault String

/-- The text of pieces whose arguments are shown by the given fillings. -/
def fillHoles (outer : Option Hint) (fillings : List Filling) (pieces : List Piece) :
    Except Fault String :=
  String.join <$> pieces.mapM fun
    | .literal text => .ok text
    | .hole argument type hint =>
      match fillings[argument]? with
      | some filling => filling type outer hint
      | none => .ok ""

/-- The text of messages that fill one hole. -/
def fillAll (fillings : List Filling) (hint : Option Hint) : Except Fault (List String) :=
  fillings.mapM fun filling => filling .statement hint none

/-- Whether a message shows one byte and nothing else. -/
def Argument.isByte : Argument → Bool
  | .message format _ => format.text = "\x7b=u8\x7d"
  | _ => false

/-- The byte that a message shows, if its only argument is one. -/
def Argument.octet : Argument → Except Fault UInt8
  | .message _ [.unsigned n] => if n < 0x100 then .ok (UInt8.ofNat n) else .error .breakdown
  | _ => .error .breakdown

/-- Shows messages of one statement. As characters they are shown where any of them is no more
than a byte; then all must be bytes. -/
def showSlice (messages : List Argument) (fillings : List Filling) (hint : Option Hint) :
    Except Fault String :=
  if hint = some .ascii ∧ messages.any (·.isByte) then
    showCharacters <$> messages.mapM (·.octet)
  else bracketed <$> fillAll fillings hint

mutual

/-- How an argument fills a hole. A hole for a whole message that stands in one for characters
passes that hint on. -/
def Argument.filling (flags : Flags) : Argument → Filling
  | .unsigned n => fun type outer own =>
    match type with
    | .bits low high => showBits flags (own <|> outer) low high n
    | _ => showUnsigned flags outer own n
  | .signed width i => fun _ outer own => showSigned (own <|> outer) width.ownBytes? i
  | .bool b => fun _ _ _ => .ok (if b then "true" else "false")
  | .char c => fun _ _ _ => .ok c.toString
  | .text t => fun _ outer own => .ok (showText (own <|> outer) t)
  | .bytes b => fun _ outer own => showBytes (own <|> outer) b
  | .float precision bits => fun _ _ _ => .ok (precision.show bits)
  | .message format arguments => fun _ outer own =>
    fillHoles (if outer = some .ascii then outer else own <|> outer)
      (Argument.fillings flags arguments) format.pieces
  | .slice messages => fun _ outer own =>
    showSlice messages (Argument.fillings flags messages) (own <|> outer)
  | .sequence messages => fun _ outer own =>
    String.join <$> fillAll (Argument.fillings flags messages) (own <|> outer)

/-- How arguments fill holes. -/
def Argument.fillings (flags : Flags) : List Argument → List Filling
  | [] => []
  | argument :: arguments => argument.filling flags :: Argument.fillings flags arguments

end

/-- The text of a message. -/
def Format.show (format : Format) (flags : Flags) (arguments : List Argument) :
    Except Fault String :=
  fillHoles none (Argument.fillings flags arguments) format.pieces

end PolledUart.Log
