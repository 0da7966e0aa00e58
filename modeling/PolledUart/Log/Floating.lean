import PolledUart.Text.ShortestDecimal

/-!
# Floating-point numbers

A floating-point number is shown by the fewest digits that tell it from all others, with a point
where the number is neither too great nor too small, and with an exponent otherwise.
-/

namespace PolledUart.Log

/-- How wide a floating-point number is. -/
inductive Precision where
  | single
  | double
deriving Repr, DecidableEq

namespace Precision

/-- The bytes of a number. -/
def bytes : Precision → Nat
  | .single => 4
  | .double => 8

/-- The bits of the fraction. -/
def fractionBits : Precision → Nat
  | .single => 23
  | .double => 52

/-- One more than the greatest biased exponent of a finite number, which marks all others. -/
def exponentMark : Precision → Nat
  | .single => 0xff
  | .double => 0x7ff

/-- What is added to an exponent so that it is not negative. -/
def bias : Precision → Nat
  | .single => 127
  | .double => 1023

/-- The greatest number of digits in front of a point. -/
def mostDigits : Precision → Int
  | .single => 13
  | .double => 16

/-- The greatest number of zeros between a point and the first other digit, and one more. -/
def mostZeros : Precision → Int
  | .single => 6
  | .double => 5

end Precision

/-- A decimal as it is shown. -/
def Precision.showDecimal (precision : Precision) (decimal : Text.Decimal) : String :=
  let digits := Nat.toDigits 10 decimal.digits
  let count : Int := digits.length
  let point := count + decimal.exponent
  let zeros := fun (n : Int) => List.replicate n.toNat '0'
  String.ofList <|
    if 0 ≤ decimal.exponent ∧ point ≤ precision.mostDigits then
      digits ++ zeros decimal.exponent ++ ['.', '0']
    else if 0 < point ∧ point ≤ precision.mostDigits then
      digits.take point.toNat ++ '.' :: digits.drop point.toNat
    else if -precision.mostZeros < point ∧ point ≤ 0 then
      '0' :: '.' :: (zeros (-point) ++ digits)
    else
      let fraction := if count = 1 then [] else '.' :: digits.drop 1
      digits.take 1 ++ fraction ++ 'e' :: (toString (point - 1)).toList

/-- A positive finite number, by its biased exponent and its fraction. -/
def Precision.showFinite (precision : Precision) (exponent fraction : Nat) : String :=
  let implied := if exponent = 0 then 0 else Nat.pow 2 precision.fractionBits
  let scale : Int := (max exponent 1 : Nat) - (precision.bias + precision.fractionBits : Nat)
  let around := Text.Neighbourhood.ofBinary (implied + fraction) scale
    (fraction = 0 && decide (1 < exponent))
  match around.shortest 310 700 with
  | some decimal => precision.showDecimal decimal
  | none => ""

/-- Shows the number that some bits stand for. -/
def Precision.show (precision : Precision) (bits : Nat) : String :=
  let fraction := bits % Nat.pow 2 precision.fractionBits
  let above := bits / Nat.pow 2 precision.fractionBits
  let exponent := above % (precision.exponentMark + 1)
  let sign := if above / (precision.exponentMark + 1) = 0 then "" else "-"
  if exponent = precision.exponentMark then
    if fraction = 0 then sign ++ "inf" else "NaN"
  else if exponent = 0 ∧ fraction = 0 then sign ++ "0.0"
  else sign ++ precision.showFinite exponent fraction

end PolledUart.Log
