import PolledUart.Log.Floating
import PolledUart.Log.Hint

/-!
# Message formats

A log statement is not sent as text. The firmware sends a number that stands for the
statement and the bytes of its arguments; the text with its holes stays in the firmware
image. A hole `{1=u32:#x}` names, each if it is not left out, the argument that fills it, the
type that is read for that argument and, behind the colon, how it is shown. A hole without a
type is filled by another statement, and a brace that is text is written twice.

`Format.parse` reads a text in three steps: it is cut into what stands outside and inside of
holes, these are read each for itself, and the holes are gathered by the argument they show. The
first part of a text that cannot be read decides what becomes of all of it.
-/

namespace PolledUart.Log

/-- How wide a number is. -/
inductive Width where
  | one
  | two
  | four
  | eight
  | sixteen
  /-- As wide as an address of the firmware. -/
  | address
deriving Repr, DecidableEq

/-- The bytes of a number. -/
def Width.bytes : Width → Nat
  | .one => 1
  | .two => 2
  | .four => 4
  | .eight => 8
  | .sixteen => 16
  | .address => 4

/-- What is read for an argument. -/
inductive ArgumentType where
  /-- An unsigned number, the lowest byte first. -/
  | unsigned (width : Width)
  /-- A signed number, the lowest byte first. -/
  | signed (width : Width)
  /-- The bits of a number from one place up to, but without, another. -/
  | bits (low high : Nat)
  /-- A truth value, one byte. -/
  | bool
  /-- A character, four bytes. -/
  | char
  /-- A text with its length in front. -/
  | text
  /-- The number of a statement that is the text. -/
  | internedText
  /-- So many bytes or, if that is not told, bytes with their number in front. -/
  | bytes (count : Option Nat)
  /-- A floating-point number. -/
  | float (precision : Precision)
  /-- A text that the firmware has made itself, for one of two uses, up to a byte that is no part
  of any text. -/
  | preformatted (debug : Bool)
  /-- The number of another statement and that statement's arguments. -/
  | statement
  /-- So many times the arguments of one statement, whose number comes once or, if there are no
  such arguments, not at all. A number that is not told comes in front. -/
  | slice (count : Option Nat)
  /-- Statements and their arguments, one after the other, up to a zero. -/
  | sequence
deriving Repr, DecidableEq

/-- A part of a message. -/
inductive Piece where
  /-- Text that is shown as it is. -/
  | literal (text : String)
  /-- A hole that shows an argument of a type, perhaps with a hint of its own. -/
  | hole (argument : Nat) (type : ArgumentType) (hint : Option Hint)
deriving Repr, DecidableEq

/-- A message with holes. -/
structure Format where
  /-- The text in which it is written. -/
  text : String
  /-- What is shown, in order. -/
  pieces : List Piece
  /-- The types of the arguments, in the order in which they are read. -/
  arguments : List ArgumentType
deriving Repr, DecidableEq

/-! ### Types -/

/-- The width of a number type of a name. -/
def Width.ofName? (name : List Char) : Option Width :=
  match String.ofList name with
  | "8" => some .one
  | "16" => some .two
  | "32" => some .four
  | "64" => some .eight
  | "128" => some .sixteen
  | "size" => some .address
  | _ => none

/-- The number that some digits write, up to the greatest that fits in a byte. -/
def octet? (digits : List Char) : Option Nat := do
  let n ← number? digits
  if n < 0x100 then some n else none

/-- The number of bytes that the two characters in front of some others take, if that number is
two: whether the text can be cut behind them at all. -/
def isCuttable : List Char → Bool
  | c :: d :: _ => c.utf8Size = 2 || c.utf8Size = 1 && d.utf8Size = 1
  | [c] => c.utf8Size = 2
  | [] => false

/-- The bits that a range names. A number without a range behind it cannot be handled. -/
def ArgumentType.ofBits (name : List Char) : Except Fault ArgumentType :=
  let rest := name.dropWhile Char.isDigit
  match octet? (name.takeWhile Char.isDigit), rest with
  | none, _ => .error .malformed
  | some low, '.' :: '.' :: digits =>
    match octet? digits with
    | some high =>
      if digits.all Char.isDigit ∧ low < high ∧ high ≤ 128 then .ok (.bits low high)
      else .error .malformed
    | none => .error .malformed
  | some _, rest => .error (if isCuttable rest then .malformed else .breakdown)

/-- The count that is named behind a semicolon. -/
def count (text : List Char) : Except Fault Nat :=
  let text := text.dropWhile (· = ' ')
  match size? (text.takeWhile Char.isDigit), text.dropWhile Char.isDigit with
  | some count, [']'] => .ok count
  | _, _ => .error .malformed

/-- The type of a name. -/
def ArgumentType.ofName (name : List Char) : Except Fault ArgumentType :=
  match String.ofList name with
  | "bool" => .ok .bool
  | "char" => .ok .char
  | "f32" => .ok (.float .single)
  | "f64" => .ok (.float .double)
  | "str" => .ok .text
  | "istr" => .ok .internedText
  | "__internal_Display" => .ok (.preformatted false)
  | "__internal_Debug" => .ok (.preformatted true)
  | "__internal_FormatSequence" => .ok .sequence
  | "?" => .ok .statement
  | "[?]" => .ok (.slice none)
  | "[u8]" => .ok (.bytes none)
  | _ =>
    match name with
    | '[' :: 'u' :: '8' :: ';' :: rest => (.bytes <| some ·) <$> count rest
    | '[' :: '?' :: ';' :: rest => (.slice <| some ·) <$> count rest
    | 'u' :: width => number .unsigned width
    | 'i' :: width => number .signed width
    | name => ofBits name
where
  /-- The type of a number of a width. -/
  number (type : Width → ArgumentType) (width : List Char) : Except Fault ArgumentType :=
    match Width.ofName? width with
    | some width => .ok (type width)
    | none => .error .malformed

/-! ### Stretches of a text -/

/-- A stretch of a text. -/
inductive Stretch where
  /-- What stands outside of holes. -/
  | outside (text : List Char)
  /-- What stands between the braces of a hole. -/
  | inside (text : List Char)
  /-- A hole that does not end. -/
  | unclosed
deriving Repr, DecidableEq

/-- Some stretches behind the characters outside of holes that come before them, of which the
last is given first. -/
def Stretch.after (reversed : List Char) (stretches : List Stretch) : List Stretch :=
  if reversed.isEmpty then stretches else .outside reversed.reverse :: stretches

/-- Cuts a text into stretches. `covered` is the number of characters that belong to a hole that
is cut already, and `past` holds the characters since the last hole, the last one first. A hole
ends at the next closing brace. A brace within a hole opens another one, which ends with it. -/
def Stretch.split : (covered : Nat) → (past : List Char) → List Char → List Stretch
  | _, past, [] => Stretch.after past []
  | covered, past, '\x7b' :: '\x7b' :: rest =>
    split (covered - 2) (if covered = 0 then '\x7b' :: '\x7b' :: past else past) rest
  | _, past, '\x7b' :: rest =>
    let inside := rest.takeWhile (· ≠ '\x7d')
    if inside.length = rest.length then Stretch.after past [.unclosed]
    else Stretch.after past (.inside inside :: split (inside.length + 1) [] rest)
  | covered, past, c :: rest =>
    split (covered - 1) (if covered = 0 then c :: past else past) rest

/-! ### Outside of holes -/

/-- Whether braces outside of holes are written twice: in front of any other character, and at
the end, there is an even number of each. -/
def bracesPaired : (opened closed : Bool) → List Char → Bool
  | opened, closed, [] => !opened && !closed
  | opened, closed, '\x7b' :: rest => bracesPaired (!opened) closed rest
  | opened, closed, '\x7d' :: rest => bracesPaired opened (!closed) rest
  | opened, closed, _ :: rest => !opened && !closed && bracesPaired opened closed rest

/-- Each pair of a character made one. -/
def unpair (c : Char) : List Char → List Char
  | [] => []
  | [d] => [d]
  | d :: e :: rest => if d = c ∧ e = c then c :: unpair c rest else d :: unpair c (e :: rest)

/-- What is shown for a text outside of holes. -/
def Piece.ofOutside (text : List Char) : Except Fault Piece :=
  if bracesPaired false false text then
    .ok (.literal (String.ofList (unpair '\x7d' (unpair '\x7b' text))))
  else .error .malformed

/-! ### Inside of holes -/

/-- What a hole says. -/
structure Hole where
  /-- The argument that it shows, if it names one. -/
  argument : Option Nat
  /-- The type of the argument. -/
  type : ArgumentType
  /-- How it is shown. -/
  hint : Option Hint
deriving Repr, DecidableEq

/-- The argument that a hole names, if any. -/
def Hole.argumentOf (digits : List Char) : Except Fault (Option Nat) :=
  if digits.isEmpty then .ok none
  else
    match size? digits with
    | some argument => .ok (some argument)
    | none => .error .malformed

/-- Reads what stands between the braces of a hole. -/
def Hole.parse (text : List Char) : Except Fault Hole := do
  let argument ← argumentOf (text.takeWhile Char.isDigit)
  let (type, rest) ← match text.dropWhile Char.isDigit with
    | '=' :: rest =>
      (ArgumentType.ofName (rest.takeWhile (· ≠ ':'))).map (·, rest.dropWhile (· ≠ ':'))
    | rest => .ok (.statement, rest)
  match rest with
  | [] => return ⟨argument, type, none⟩
  | [':'] => throw .malformed
  | ':' :: hint => return ⟨argument, type, some (Hint.parse hint)⟩
  | _ => throw .malformed

/-! ### Messages -/

/-- Reads stretches. Holes that name no argument show one after the other, from `next` on. -/
def Piece.ofStretches (next : Nat) : List Stretch → Except Fault (List Piece)
  | [] => .ok []
  | .unclosed :: _ => .error .malformed
  | .outside text :: rest => return (← ofOutside text) :: (← ofStretches next rest)
  | .inside text :: rest => do
    let hole ← Hole.parse text
    match hole.argument with
    | some argument =>
      return .hole argument hole.type hole.hint :: (← ofStretches next rest)
    | none => return .hole next hole.type hole.hint :: (← ofStretches (next + 1) rest)

/-- The argument and type of a hole. -/
def Piece.use? : Piece → Option (Nat × ArgumentType)
  | .literal _ => none
  | .hole argument type _ => some (argument, type)

/-- The type that serves two holes which show the same argument. -/
def ArgumentType.join? : ArgumentType → ArgumentType → Option ArgumentType
  | .bits low high, .bits low' high' => some (.bits (min low low') (max high high'))
  | type, type' => if type = type' then some type else none

/-- The type of an argument, by the holes that show it; one that no hole shows has none. -/
def argumentType? (uses : List (Nat × ArgumentType)) (argument : Nat) : Option ArgumentType :=
  match (uses.filter (·.1 = argument)).map (·.2) with
  | [] => none
  | type :: others => others.foldlM ArgumentType.join? type

/-- The types of all arguments that pieces show. Each must be shown, so there are no more of them
than holes. -/
def argumentTypes? (uses : List (Nat × ArgumentType)) : Option (List ArgumentType) :=
  let count := uses.foldl (fun count use => max count (use.1 + 1)) 0
  if count ≤ uses.length then (List.range count).mapM (argumentType? uses) else none

/-- The least number of arguments for which there is no room. -/
def roomLimit : Nat := 0x800000000000000

/-- The uses up to the first for whose argument there is no room. -/
def roomy (uses : List (Nat × ArgumentType)) : List (Nat × ArgumentType) :=
  uses.takeWhile (·.1 + 1 < roomLimit)

/-- Whether each argument has one type in all of its uses. -/
def agree (uses : List (Nat × ArgumentType)) : Bool :=
  uses.all fun use => (argumentType? uses use.1).isSome

/-- The format that is written in a text, if all of it can be read. -/
def Format.parse (text : String) : Except Fault Format := do
  let pieces ← Piece.ofStretches 0 (Stretch.split 0 [] text.toList)
  let uses := pieces.filterMap Piece.use?
  if (roomy uses).length < uses.length ∧ agree (roomy uses) then throw .breakdown
  match argumentTypes? uses with
  | some arguments => return ⟨text, pieces, arguments⟩
  | none => throw .malformed

end PolledUart.Log
