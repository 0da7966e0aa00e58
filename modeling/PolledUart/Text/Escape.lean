import PolledUart.Text.GraphemeExtend
import PolledUart.Text.Printable

/-!
# Listings of text

`escape` shows a text on one line: the common control characters, the quotes and the
backslash get a backslash, whatever else is not printable is shown by its code point in
hexadecimal, and all other characters stand for themselves. A character that would attach
to the one in front of it is shown by its code point where there is none in front.
-/

namespace PolledUart.Text

/-- A character shown by its code point. -/
def codePoint (c : Char) : String :=
  "\\u\x7b" ++ String.ofList (Nat.toDigits 16 c.toNat) ++ "\x7d"

/-- How a character is shown; `leading` says that it is the first of its text. -/
def escapeChar (leading : Bool) (c : Char) : String :=
  match c with
  | '\x00' => "\\0"
  | '\t' => "\\t"
  | '\r' => "\\r"
  | '\n' => "\\n"
  | '\'' => "\\'"
  | '"' => "\\\""
  | '\\' => "\\\\"
  | _ =>
    if (leading && extendsGrapheme c) || !isPrintable c then codePoint c else c.toString

/-- A text on one line. -/
def escape (text : String) : String :=
  match text.toList with
  | [] => ""
  | c :: rest => escapeChar true c ++ String.join (rest.map (escapeChar false))

/-- A text in quotes. The other quote needs no backslash here, and every character that could
attach to another one is shown by its code point. -/
def quote (text : String) : String :=
  "\"" ++ String.join (text.toList.map fun c =>
    if c = '\'' then c.toString else escapeChar true c) ++ "\""

@[simp] theorem escape_empty : escape "" = "" := rfl

end PolledUart.Text
