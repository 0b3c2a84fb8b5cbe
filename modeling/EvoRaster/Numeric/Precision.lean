/-!
Contract: moving a number between single and double precision.

Owns:
- `widen`, which keeps the value of a single-precision number;
- `narrow`, which rounds a double-precision number to the nearest single-precision one, ties to the
  even neighbour, and to infinity beyond the largest finite one.

Both decode the bits into sign, significand and exponent and round that to the other format, so a
proof can follow them down to integer arithmetic.
-/

namespace EvoRaster.Numeric

open Float.Model

/-- Rounds a decoded number to `format`. Zeros, infinities and the undefined value have no digits to
round and stay as they are. -/
def roundTo (format : Format) : UnpackedFloat → UnpackedFloat
  | .finite sign significand exponent _ => .round format sign significand exponent
  | special => special

/-- The double-precision number of the same value. -/
def widen (x : Float32) : Float :=
  .ofModel (.pack (roundTo .binary64 x.toModel.unpack))

/-- The nearest single-precision number, ties to even. -/
def narrow (x : Float) : Float32 :=
  .ofModel (.pack (roundTo .binary32 x.toModel.unpack))

/-- What is left of `x` after it has been stored in single precision. -/
def throughSingle (x : Float) : Float :=
  widen (narrow x)

end EvoRaster.Numeric
