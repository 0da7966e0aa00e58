/-!
# Shortest decimals

A number that is kept in binary stands for all numbers that round to it. It is written as that
one among them which has the fewest digits and, of several, is the nearest to the number itself.

`Neighbourhood.decimal?` looks for it among the numbers that end at a power of ten, and
`Neighbourhood.shortest` tries these powers from the greatest down.
-/

namespace PolledUart.Text

/-- A decimal number: so many of a power of ten. -/
structure Decimal where
  /-- Its digits, read as a number. -/
  digits : Nat
  /-- The exponent of the power of ten. -/
  exponent : Int
deriving Repr, DecidableEq

/-- A positive number with the bounds between which all numbers round to it, all four over one
denominator. -/
structure Neighbourhood where
  /-- The number. -/
  value : Nat
  /-- The lower bound. -/
  low : Nat
  /-- The upper bound. -/
  high : Nat
  /-- The denominator. -/
  denominator : Nat
  /-- Whether the bounds themselves round to the number. -/
  closed : Bool
deriving Repr, DecidableEq

/-- The neighbourhood of `significand` times a power of two. The step below is half as wide as
the one above where `narrow` says so, and a bound rounds to the even side. -/
def Neighbourhood.ofBinary (significand : Nat) (exponent : Int) (narrow : Bool) :
    Neighbourhood :=
  let scale := Nat.pow 2 exponent.toNat
  { value := 4 * significand * scale
    low := (4 * significand - (if narrow then 1 else 2)) * scale
    high := (4 * significand + 2) * scale
    denominator := 4 * Nat.pow 2 (-exponent).toNat
    closed := significand % 2 = 0 }

/-- The nearest number of the neighbourhood among those that end at a power of ten. It is one of
the two on either side of the value, and of two that are equally near the even one. -/
def Neighbourhood.decimal? (around : Neighbourhood) (exponent : Int) : Option Decimal :=
  let scale := Nat.pow 10 (-exponent).toNat
  let unit := around.denominator * Nat.pow 10 exponent.toNat
  let contains := fun n =>
    if around.closed then around.low * scale ≤ n * unit && n * unit ≤ around.high * scale
    else around.low * scale < n * unit && n * unit < around.high * scale
  let value := around.value * scale
  let below := value / unit
  let above := below + 1
  let nearer :=
    if above * unit - value < value - below * unit then above
    else if above * unit - value = value - below * unit ∧ below % 2 = 1 then above
    else below
  let found :=
    if contains below && contains above then some nearer
    else if contains below then some below
    else if contains above then some above
    else none
  found.map (⟨·, exponent⟩)

/-- The shortest decimal of a neighbourhood, with exponents from a bound down. -/
def Neighbourhood.shortest (around : Neighbourhood) (greatest : Int) (count : Nat) :
    Option Decimal :=
  (List.range count).findSome? fun (i : Nat) => around.decimal? (greatest - i)

end PolledUart.Text
