import EvoRaster.Numeric.Extremum
import EvoRaster.Numeric.Turn
import EvoRaster.Program.Instr

/-!
Contract: what the operators compute, in single precision.

The left operand was pushed first. Angles are in turns for `cos` and `sin`; `atan` answers radians.
-/

namespace EvoRaster

def BinaryOp.apply : BinaryOp → Float32 → Float32 → Float32
  | .add, left, right => left + right
  | .sub, left, right => left - right
  | .mul, left, right => left * right
  | .max, left, right => Numeric.maxNum left right
  | .min, left, right => Numeric.minNum left right

def UnaryOp.apply : UnaryOp → Float32 → Float32
  | .cos, operand => Numeric.cosOfTurns operand
  | .sin, operand => Numeric.sinOfTurns operand
  | .atan, operand => operand.atan

end EvoRaster
