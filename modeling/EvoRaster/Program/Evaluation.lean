import EvoRaster.Program.Basic
import EvoRaster.Program.Operator
import EvoRaster.Program.Stack

/-!
Contract: the checked evaluation of a program at one point.

Owns:
- the registers that hold the coordinates of the point;
- `Instr.perform`, one instruction on the bounded stack;
- `Program.evaluate`, which answers the only number that is left.

Each instruction checks its own operands in a fixed order, so a program has one first error. `var`
looks at its index before it pushes; `dup` pops before it pushes twice; `drop` is refused before it
touches the stack.
-/

namespace EvoRaster

/-- The inputs of one evaluation, by index: 0 is x and 1 is y. -/
abbrev Registers := Array Float32

inductive EvalError where
  | stack (cause : StackError)
  | negativeIndex (index : Int)
  | noRegister (index : Int) (registers : Nat)
  | dropRefused
deriving DecidableEq, Repr

def EvalError.message : EvalError → String
  | .stack cause => cause.message
  | .negativeIndex index => (InstrError.negativeIndex index).message
  | .noRegister index registers =>
      s!"index {index} is out of bounds for axis 0 with size {registers}"
  | .dropRefused => "Drop is not implemented"

def EvalError.ofStack {α : Type} (outcome : Except StackError α) : Except EvalError α :=
  outcome.mapError .stack

/-- A number of registers with the given values; registers without a value are zero. -/
def Registers.create (count : Int) (values : List Float32) : Except SizeError Registers := do
  let cells ← blankCells count
  return cells.toArray.mapIdx fun index blank => values.getD index blank

def Registers.read (registers : Registers) (index : Int) : Except EvalError Float32 :=
  if index < 0 then
    .error (.negativeIndex index)
  else
    match registers[index.toNat]? with
    | some value => .ok value
    | none => .error (.noRegister index registers.size)

open EvalError in
def Instr.perform {capacity : Nat} (registers : Registers) (stack : Stack capacity)
    (instr : Instr) : Except EvalError (Stack capacity) :=
  match instr.op with
  | .const => ofStack (stack.pushRounded instr.value)
  | .var => do
      let value ← registers.read instr.index
      ofStack (stack.push value)
  | .binary operator => do
      let (right, stack) ← ofStack stack.pop
      let (left, stack) ← ofStack stack.pop
      ofStack (stack.push (operator.apply left right))
  | .unary operator => do
      let (operand, stack) ← ofStack stack.pop
      ofStack (stack.push (operator.apply operand))
  | .dup => do
      let (value, stack) ← ofStack stack.pop
      let stack ← ofStack (stack.push value)
      ofStack (stack.push value)
  | .drop => .error .dropRefused

namespace Program

/-- Runs the instructions in order, from the given stack. -/
def runOn {capacity : Nat} (registers : Registers) :
    Program → Stack capacity → Except EvalError (Stack capacity)
  | [], stack => .ok stack
  | instr :: rest, stack => do
      let stack ← instr.perform registers stack
      runOn registers rest stack

/-- The value of the program at a point, on an empty stack of 64 cells. -/
def evaluate (program : Program) (registers : Registers) : Except EvalError Float32 := do
  let stack ← program.runOn registers (Stack.empty Stack.evaluationCapacity)
  let (value, _) ← EvalError.ofStack stack.result
  return value

end Program

end EvoRaster
