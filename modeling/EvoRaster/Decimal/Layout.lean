import EvoRaster.Decimal.Shortest

/-!
Contract: how a number is laid out as text once its decimal digits are known.

Owns:
- `Style`, the decisions of one kind of text;
- `single` and `double`, the texts of numbers of either precision in a style.

The texts are lists of characters. A negative number, minus zero included, starts with a minus sign.
-/

namespace EvoRaster.Decimal

open Float.Model Float.Model.UnpackedFloat

/-- The decisions of one kind of number text. -/
structure Style where
  /-- Numbers from ten to the first power on and below ten to the second are written without an
  exponent. Without a window all numbers are. -/
  window : Option (Int × Int)
  /-- A whole number without an exponent ends in a point and a zero. -/
  keepsPoint : Bool
  infinity : List Char
  undefined : List Char

def zeros (count : Nat) : List Char := List.replicate count '0'

def split (number : Decimal) : List Char × List Char :=
  let digits := Nat.toDigits 10 number.coefficient
  if 0 ≤ number.exponent then
    (digits ++ zeros number.exponent.toNat, [])
  else
    let places := (-number.exponent).toNat
    if places < digits.length then
      digits.splitAt (digits.length - places)
    else
      (['0'], zeros (places - digits.length) ++ digits)

def positional (keepsPoint : Bool) (number : Decimal) : List Char :=
  match number.split with
  | (whole, []) => if keepsPoint then whole ++ ['.', '0'] else whole
  | (whole, fraction) => whole ++ '.' :: fraction

/-- One digit before the point and a power of ten, whose sign is always written and which has at
least two digits. -/
def scientific (number : Decimal) : List Char :=
  let digits := Nat.toDigits 10 number.coefficient
  let power := number.exponent + (digits.length - 1 : Nat)
  let powerDigits := Nat.toDigits 10 power.natAbs
  let fraction := match digits.drop 1 with
    | [] => []
    | rest => '.' :: rest
  digits.take 1 ++ fraction ++ ['e', if power < 0 then '-' else '+'] ++
    zeros (2 - powerDigits.length) ++ powerDigits

/-- `significand * 2 ^ exponent` is at least `10 ^ power`. -/
def reaches (significand : Nat) (exponent power : Int) : Bool :=
  decide (Nat.pow 2 (-exponent).toNat * Nat.pow 10 power.toNat ≤
    significand * Nat.pow 2 exponent.toNat * Nat.pow 10 (-power).toNat)

def Style.isPositional (style : Style) (significand : Nat) (exponent : Int) : Bool :=
  match style.window with
  | none => true
  | some (first, last) => reaches significand exponent first && !reaches significand exponent last

def signMark : Sign → List Char
  | .positive => []
  | .negative => ['-']

/-- The text of a decoded number of a format. -/
def Style.write (style : Style) (format : Format) : UnpackedFloat → List Char
  | .notANumber => style.undefined
  | .infinity sign => signMark sign ++ style.infinity
  | .zero sign => signMark sign ++ positional style.keepsPoint { coefficient := 0, exponent := 0 }
  | .finite sign significand exponent _ =>
      let number := shortest format significand exponent
      signMark sign ++
        (if style.isPositional significand exponent then
          positional style.keepsPoint number
        else
          scientific number)

def single (style : Style) (x : Float32) : List Char := style.write .binary32 x.toModel.unpack

def double (style : Style) (x : Float) : List Char := style.write .binary64 x.toModel.unpack

/-- The style of reports: numbers from one ten-thousandth on and below ten to the sixteenth are written
without an exponent, and a whole one keeps its point. -/
def reportStyle : Style :=
  { window := some (-4, 16), keepsPoint := true, infinity := "inf".toList, undefined := "nan".toList }

end EvoRaster.Decimal
