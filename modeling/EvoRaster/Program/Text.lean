import EvoRaster.Decimal.Layout
import EvoRaster.Program.Basic
import EvoRaster.Program.Stack

/-!
Contract: programs as text.

Owns:
- the postfix text of a program, its words separated by single spaces;
- the descriptive text of one instruction, which names the opcode and its operand;
- the descriptive text of a stack, which shows its live cells, bottom first.

In postfix text a constant is written with the fewest digits that identify it in single precision,
never with an exponent, and without a point when it is whole. Only two registers have names.
-/

namespace EvoRaster

inductive TextError where
  | unnamedRegister (index : Int)
deriving DecidableEq, Repr

def TextError.message : TextError → String
  | .unnamedRegister index => s!"var_name: only 0 and 1 are handled, got {index}"

def registerName (index : Int) : Except TextError String :=
  if index = 0 then .ok "x"
  else if index = 1 then .ok "y"
  else .error (.unnamedRegister index)

/-- The style of constants in postfix text. -/
def constantStyle : Decimal.Style :=
  { window := none, keepsPoint := false, infinity := "inf".toList, undefined := "nan".toList }

def constantText (value : Float32) : String := String.ofList (Decimal.single constantStyle value)

def BinaryOp.token : BinaryOp → String
  | .add => "+"
  | .sub => "-"
  | .mul => "*"
  | .max => "max"
  | .min => "min"

def UnaryOp.token : UnaryOp → String
  | .cos => "cos"
  | .sin => "sin"
  | .atan => "atan"

def BinaryOp.description : BinaryOp → String
  | .add => "Add"
  | .sub => "Sub"
  | .mul => "Mul"
  | .max => "Max"
  | .min => "Min"

def UnaryOp.description : UnaryOp → String
  | .cos => "Cos"
  | .sin => "Sin"
  | .atan => "Atan"

namespace Instr

def text (instr : Instr) : Except TextError String :=
  match instr.op with
  | .const => .ok (constantText instr.constant)
  | .var => registerName instr.index
  | .binary operator => .ok operator.token
  | .unary operator => .ok operator.token
  | .drop => .ok "drop"
  | .dup => .ok "dup"

/-- The name of the opcode, with the operand that it reads. -/
def description (instr : Instr) : String :=
  match instr.op with
  | .const => "Const(" ++ String.ofList (Decimal.double Decimal.reportStyle instr.value) ++ ")"
  | .var => s!"Var({instr.index})"
  | .binary operator => operator.description
  | .unary operator => operator.description
  | .drop => "Drop"
  | .dup => "Dup"

end Instr

/-- The postfix text of a program. The empty program has the empty text. -/
def Program.text (program : Program) : Except TextError String := do
  let words ← program.mapM Instr.text
  return " ".intercalate words

/-- The live cells of a stack, bottom first. -/
def Stack.description {capacity : Nat} (stack : Stack capacity) : String :=
  let cells := stack.contents.map fun value =>
    "np.float32(" ++ String.ofList (Decimal.single Decimal.reportStyle value) ++ ")"
  "EvalStack([" ++ ", ".intercalate cells ++ "])"

end EvoRaster
