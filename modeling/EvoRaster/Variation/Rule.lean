import EvoRaster.Program.Basic
import EvoRaster.Random.Draw

/-!
Contract: replacement rules, which draw a short sequence of words to put in the place of one word.

Owns:
- random constants and random variables;
- the rule of each class of words: values, binary operators and unary operators.

Every rule keeps the effect of the replaced word on the height of the stack. A value is replaced by one
value, which may be computed from the old one; a binary operator by a binary operator; a unary operator by
words that take one number and leave one.
-/

namespace EvoRaster

inductive VariationError where
  | draw (cause : DrawError)
  | instr (cause : InstrError)
  | emptyProgram
  | noRegisters (registers : Int)
  | dropChosen
deriving DecidableEq, Repr

def VariationError.message : VariationError → String
  | .draw cause => cause.message
  | .instr cause => cause.message
  | .emptyProgram => "mutate: program is empty"
  | .noRegisters registers => s!"mutate: nvars must be >= 1, got {registers}"
  | .dropChosen => "mutate: cannot mutate Drop"

/-- A computation that draws from a source and may fail for a reason of the program too. -/
abbrev Variation := ExceptT VariationError (StateM Source)

instance : MonadLift Draw Variation where
  monadLift draw := draw.adapt .draw

instance : MonadLift (Except InstrError) Variation where
  monadLift outcome := ExceptT.mk (pure (outcome.mapError .instr))

namespace Rule

/-- The constant of two words: twice their fraction, less one. -/
def constantOf (fraction : Float) : Instr := Instr.const (fraction * 2 - 1)

def constant : Draw Instr := do
  return constantOf (← Draw.fraction)

/-- A random variable, among the first `registers`. -/
def register (registers : Int) : Variation Instr := do
  let index ← Draw.below registers.toNat
  Instr.var index.val

/-- What replaces a value: a fresh value, the old one combined with a random constant on either side, or the
old one under a unary operator. -/
def replaceValue (kept : Instr) (registers : Int) : Variation (List Instr) := do
  match ← Draw.below 11 with
  | 0 => return [← constant]
  | 1 => return [← register registers]
  | 2 => return [kept, ← constant, Instr.binary .add]
  | 3 => return [← constant, kept, Instr.binary .add]
  | 4 => return [kept, ← constant, Instr.binary .sub]
  | 5 => return [← constant, kept, Instr.binary .sub]
  | 6 => return [kept, ← constant, Instr.binary .mul]
  | 7 => return [← constant, kept, Instr.binary .mul]
  | 8 => return [kept, Instr.unary .cos]
  | 9 => return [kept, Instr.unary .sin]
  | 10 => return [kept, Instr.unary .atan]

/-- What replaces a constant. The old constant is kept in single precision. -/
def replaceConstant (value : Float) (registers : Int) : Variation (List Instr) :=
  replaceValue (Instr.const value) registers

def replaceVariable (index registers : Int) : Variation (List Instr) := do
  let kept ← Instr.var index
  replaceValue kept registers

/-- What replaces a binary operator: addition, subtraction or multiplication. -/
def replaceBinary : Draw (List Instr) := do
  match ← Draw.below 3 with
  | 0 => return [Instr.binary .add]
  | 1 => return [Instr.binary .sub]
  | 2 => return [Instr.binary .mul]

/-- What replaces a unary operator: a unary operator, an operation with a random constant, or nothing. -/
def replaceUnary : Draw (List Instr) := do
  match ← Draw.below 6 with
  | 0 => return [Instr.unary .cos]
  | 1 => return [Instr.unary .sin]
  | 2 => return [Instr.unary .atan]
  | 3 => return [← constant, Instr.binary .add]
  | 4 => return [← constant, Instr.binary .mul]
  | 5 => return []

/-- What replaces a word, by the class of its opcode. A `dup` stays as it is; a `drop` has no rule. -/
def replace (instr : Instr) (registers : Int) : Variation (List Instr) :=
  match instr.op with
  | .const => replaceConstant instr.value registers
  | .var => replaceVariable instr.index registers
  | .binary _ => replaceBinary
  | .unary _ => replaceUnary
  | .dup => return [instr]
  | .drop => throw .dropChosen

end Rule

end EvoRaster
