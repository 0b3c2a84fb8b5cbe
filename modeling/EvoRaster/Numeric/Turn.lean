/-!
Contract: cosine and sine of an angle given in turns.

A quarter turn has sine one. The angle in radians is rounded to single precision before the
function is taken.
-/

namespace EvoRaster.Numeric

/-- One turn in radians, in single precision. -/
def radiansPerTurn : Float32 := Float32.ofBits 0x40c90fdb

def cosOfTurns (turns : Float32) : Float32 := (turns * radiansPerTurn).cos

def sinOfTurns (turns : Float32) : Float32 := (turns * radiansPerTurn).sin

end EvoRaster.Numeric
