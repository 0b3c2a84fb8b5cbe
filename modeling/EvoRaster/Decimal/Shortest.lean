/-!
Contract: the fewest decimal digits that identify a binary number.

Owns:
- `Neighbourhood`, a positive binary number with the midpoints to its two neighbours in its format;
- `shortest`, a decimal inside the neighbourhood with as few digits as possible, and among those the
  one nearest to the number.

The numbers between the midpoints round back to the binary number, and so do the midpoints
themselves when its significand is even. The search tries grids of powers of ten from coarse to fine.
On each grid only the two points around the number can be the nearest inside. Everything is exact
integer arithmetic.
-/

namespace EvoRaster

/-- The decimal `coefficient * 10 ^ exponent`. -/
structure Decimal where
  coefficient : Nat
  exponent : Int
deriving DecidableEq, Repr

namespace Decimal

open Float.Model

/-- A positive number and the midpoints to its neighbours, all in units of `2 ^ unit`. -/
structure Neighbourhood where
  low : Nat
  value : Nat
  high : Nat
  unit : Int
  closed : Bool

/-- The neighbourhood of `significand * 2 ^ exponent`. The neighbour below a power of two is half as
far away as the one above, except at the bottom of the format. -/
def Neighbourhood.of (format : Format) (significand : Nat) (exponent : Int) : Neighbourhood :=
  let halved := significand == Nat.pow 2 (format.mantissaBits - 1) && decide (format.minExponent < exponent)
  { low := 4 * significand - (if halved then 1 else 2)
    value := 4 * significand
    high := 4 * significand + 2
    unit := exponent - 2
    closed := significand % 2 == 0 }

/-- The quotient `2 ^ unit / 10 ^ power`, as a numerator and a denominator. -/
def gridRatio (unit power : Int) : Nat × Nat :=
  (Nat.pow 2 unit.toNat * Nat.pow 10 (-power).toNat, Nat.pow 2 (-unit).toNat * Nat.pow 10 power.toNat)

/-- A point of the grid of step `10 ^ power` rounds to the number. -/
def Neighbourhood.contains (around : Neighbourhood) (power : Int) (point : Nat) : Bool :=
  let (numerator, denominator) := gridRatio around.unit power
  let position := point * denominator
  if around.closed then
    decide (around.low * numerator ≤ position) && decide (position ≤ around.high * numerator)
  else
    decide (around.low * numerator < position) && decide (position < around.high * numerator)

/-- The point of the grid of step `10 ^ power` that is nearest to the number and rounds to it, if
there is one. Of two equally near points it is the even one. -/
def Neighbourhood.nearestOn? (around : Neighbourhood) (power : Int) : Option Nat :=
  let (numerator, denominator) := gridRatio around.unit power
  let below := around.value * numerator / denominator
  let excess := around.value * numerator % denominator
  match around.contains power below, around.contains power (below + 1) with
  | true, true =>
      if 2 * excess < denominator then some below
      else if 2 * excess = denominator then some (below + below % 2)
      else some (below + 1)
  | true, false => some below
  | false, true => some (below + 1)
  | false, false => none

/-- The first decimal found on the grids of step `10 ^ power`, `10 ^ (power - 1)` and so on. -/
def Neighbourhood.search? (around : Neighbourhood) : Nat → Int → Option Decimal
  | 0, _ => none
  | grids + 1, power =>
      match around.nearestOn? power with
      | some coefficient => some { coefficient, exponent := power }
      | none => around.search? grids (power - 1)

def exact (significand : Nat) (exponent : Int) : Decimal :=
  if 0 ≤ exponent then
    { coefficient := significand * Nat.pow 2 exponent.toNat, exponent := 0 }
  else
    { coefficient := significand * Nat.pow 5 (-exponent).toNat, exponent }

/-- A power of ten above `significand * 2 ^ exponent`, and not far above. -/
def powerAbove (significand : Nat) (exponent : Int) : Int :=
  ((significand.log2 : Int) + 1 + exponent) * 30103 / 100000 + 2

/-- The number of grids tried. Seventeen digits identify a double-precision number, and the search
starts at most three places above the first digit. -/
def gridLimit : Nat := 24

/-- The shortest decimal that identifies `significand * 2 ^ exponent` in the format. -/
def shortest (format : Format) (significand : Nat) (exponent : Int) : Decimal :=
  let around := Neighbourhood.of format significand exponent
  (around.search? gridLimit (powerAbove significand exponent)).getD (exact significand exponent)

end Decimal

end EvoRaster
