import EvoRaster.Machine.Code
import EvoRaster.Numeric.FromEnd
import EvoRaster.Program.Evaluation
import EvoRaster.Program.Operator

/-!
Contract: the machine that runs compiled code in a buffer it does not clear.

Owns:
- the frame, a buffer that the caller lends and the number of its live cells;
- `BinaryOp.combine`, the binary operators of the machine, which has its own extremes;
- `Frame.step`, one slot, which overwrites operands in place;
- `Code.run`, the outcome of a whole run together with the buffer it leaves behind.

A slot checks the number of live cells before it touches the buffer, so a faulty slot leaves the buffer
as it found it. Whatever the buffer holds above the live cells is overwritten before it is read.
-/

namespace EvoRaster

inductive Fault where
  | underflow
  | overflow
  | itemCount
  | dropRefused
  | unknownOpcode
  | noRegister
deriving DecidableEq, Repr

def Fault.message : Fault → String
  | .underflow => "Stack underflow"
  | .overflow => "Stack overflow"
  | .itemCount => "Stack should contain exactly 1 item"
  | .dropRefused => "Drop is not implemented"
  | .unknownOpcode => "Unknown opcode"
  | .noRegister => "Register out of range"

/-- What the machine computes for a binary operator. -/
def BinaryOp.combine : BinaryOp → Float32 → Float32 → Float32
  | .add, left, right => left + right
  | .sub, left, right => left - right
  | .mul, left, right => left * right
  | .max, left, right => Numeric.larger left right
  | .min, left, right => Numeric.smaller left right

/-- A buffer whose first `height` cells are live. -/
structure Frame (capacity : Nat) where
  buffer : Vector Float32 capacity
  height : Nat
  height_le : height ≤ capacity

namespace Frame

def start {capacity : Nat} (buffer : Vector Float32 capacity) : Frame capacity :=
  { buffer, height := 0, height_le := Nat.zero_le _ }

variable {capacity : Nat}

/-- The outcome of one slot. A fault hands the buffer back. -/
inductive Step (capacity : Nat) where
  | next (frame : Frame capacity)
  | fault (cause : Fault) (buffer : Vector Float32 capacity)

def put (frame : Frame capacity) (value : Float32) : Step capacity :=
  if room : frame.height < capacity then
    .next
      { buffer := frame.buffer.set frame.height value
        height := frame.height + 1
        height_le := room }
  else
    .fault .overflow frame.buffer

def combine (frame : Frame capacity) (operator : BinaryOp) : Step capacity :=
  if operands : 2 ≤ frame.height then
    have bound := frame.height_le
    let left := frame.buffer[frame.height - 2]
    let right := frame.buffer[frame.height - 1]
    .next
      { buffer := frame.buffer.set (frame.height - 2) (operator.combine left right)
        height := frame.height - 1
        height_le := by omega }
  else
    .fault .underflow frame.buffer

def transform (frame : Frame capacity) (operator : UnaryOp) : Step capacity :=
  if operand : 1 ≤ frame.height then
    have bound := frame.height_le
    let top := frame.buffer[frame.height - 1]
    .next
      { buffer := frame.buffer.set (frame.height - 1) (operator.apply top)
        height := frame.height
        height_le := frame.height_le }
  else
    .fault .underflow frame.buffer

/-- Copies the topmost cell. An empty frame underflows even if it has no room. -/
def duplicate (frame : Frame capacity) : Step capacity :=
  if live : 1 ≤ frame.height then
    have bound := frame.height_le
    frame.put frame.buffer[frame.height - 1]
  else
    .fault .underflow frame.buffer

/-- Runs one slot. A variable without room overflows before its register is looked up. -/
def step (registers : Registers) (frame : Frame capacity) (slot : Slot) : Step capacity :=
  match Op.ofNumber? slot.opcode with
  | some .const => frame.put slot.value
  | some .var =>
      if frame.height < capacity then
        match position? registers.size slot.index with
        | some position => frame.put registers[position]
        | none => .fault .noRegister frame.buffer
      else
        .fault .overflow frame.buffer
  | some (.binary operator) => frame.combine operator
  | some (.unary operator) => frame.transform operator
  | some .dup => frame.duplicate
  | some .drop => .fault .dropRefused frame.buffer
  | none => .fault .unknownOpcode frame.buffer

/-- The value of a frame whose only live cell is the result. -/
def finish (frame : Frame capacity) : Except Fault Float32 :=
  if single : frame.height = 1 then
    have bound := frame.height_le
    .ok frame.buffer[0]
  else
    .error .itemCount

end Frame

namespace Code

/-- Runs code from a frame. Answers the value or the fault, and the buffer afterwards. -/
def runFrom {capacity : Nat} (registers : Registers) :
    Code → Frame capacity → Except Fault Float32 × Vector Float32 capacity
  | [], frame => (frame.finish, frame.buffer)
  | slot :: rest, frame =>
      match frame.step registers slot with
      | .next frame => runFrom registers rest frame
      | .fault cause buffer => (.error cause, buffer)

/-- Runs code in a buffer with any contents. -/
def run {capacity : Nat} (code : Code) (registers : Registers)
    (buffer : Vector Float32 capacity) : Except Fault Float32 × Vector Float32 capacity :=
  code.runFrom registers (Frame.start buffer)

end Code

end EvoRaster
