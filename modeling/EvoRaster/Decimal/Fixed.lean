import EvoRaster.Decimal.Layout

/-!
Contract: numbers with a fixed count of decimal places.

The exact value of the number is rounded to the last place, a half to the even digit. Thousands may be
grouped by commas.
-/

namespace EvoRaster.Decimal

open Float.Model

/-- The quotient rounded to the nearest natural number, a half to the even one. -/
def divideToEven (numerator denominator : Nat) : Nat :=
  let quotient := numerator / denominator
  let remainder := numerator % denominator
  if 2 * remainder < denominator then quotient
  else if 2 * remainder = denominator then quotient + quotient % 2
  else quotient + 1

/-- `significand * 2 ^ exponent` in units of the last of `places` decimal places, rounded. -/
def scaledToPlaces (places significand : Nat) (exponent : Int) : Nat :=
  divideToEven (significand * Nat.pow 2 exponent.toNat * Nat.pow 10 places) (Nat.pow 2 (-exponent).toNat)

/-- A comma before every third digit from the right, the first digit excepted. -/
def groupThousands (digits : List Char) : List Char :=
  match digits with
  | [] => []
  | first :: rest =>
      first :: (rest.zipIdx.flatMap fun (digit, position) =>
        if (rest.length - position) % 3 = 0 then [',', digit] else [digit])

def layOutPlaces (places : Nat) (grouped : Bool) (count : Nat) : List Char :=
  let digits := Nat.toDigits 10 count
  let padded := zeros (places + 1 - digits.length) ++ digits
  let (whole, fraction) := padded.splitAt (padded.length - places)
  (if grouped then groupThousands whole else whole) ++
    (if fraction.isEmpty then [] else '.' :: fraction)

def fixed (places : Nat) (grouped : Bool) (x : Float) : String :=
  String.ofList <|
    match x.toModel.unpack with
    | .notANumber => reportStyle.undefined
    | .infinity sign => signMark sign ++ reportStyle.infinity
    | .zero sign => signMark sign ++ layOutPlaces places grouped 0
    | .finite sign significand exponent _ =>
        signMark sign ++ layOutPlaces places grouped (scaledToPlaces places significand exponent)

end EvoRaster.Decimal
