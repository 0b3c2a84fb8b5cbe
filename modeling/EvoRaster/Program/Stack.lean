import EvoRaster.Numeric.Precision

/-!
Contract: the fixed-capacity stack of the checked evaluator.

Owns:
- the stack, a buffer that never grows and a cursor into it;
- `push`, `pop` and `result`, and the three ways in which they fail;
- `contents`, the live part of the buffer, bottom first.

A call that fails answers an error in place of a stack, so the caller goes on with the stack it had.
A popped cell is not cleared. The next push overwrites it.
-/

namespace EvoRaster

inductive StackError where
  | underflow
  | overflow
  /-- A program ended with another number of items than one. -/
  | itemCount (count : Nat)
deriving DecidableEq, Repr

def StackError.message : StackError → String
  | .underflow => "Stack underflow"
  | .overflow => "Stack overflow"
  | .itemCount count => s!"Stack should contain exactly 1 item but had {count} items"

inductive SizeError where
  | negative
deriving DecidableEq, Repr

def SizeError.message : SizeError → String
  | .negative => "negative dimensions are not allowed"

def blankCells (count : Int) : Except SizeError (Vector Float32 count.toNat) :=
  if count < 0 then .error .negative else .ok (Vector.replicate _ 0)

/-- The first `height` cells of `cells` are live. -/
structure Stack (capacity : Nat) where
  cells : Vector Float32 capacity
  height : Nat
  height_le : height ≤ capacity

namespace Stack

/-- The capacity of the stack that a program is evaluated on. -/
def evaluationCapacity : Nat := 64

def empty (capacity : Nat) : Stack capacity :=
  { cells := Vector.replicate capacity 0, height := 0, height_le := Nat.zero_le _ }

def create (capacity : Int) : Except SizeError (Stack capacity.toNat) := do
  let cells ← blankCells capacity
  return { cells, height := 0, height_le := Nat.zero_le _ }

/-- The live cells, bottom first. -/
def contents {capacity : Nat} (stack : Stack capacity) : List Float32 :=
  stack.cells.toList.take stack.height

def push {capacity : Nat} (stack : Stack capacity) (value : Float32) :
    Except StackError (Stack capacity) :=
  if room : stack.height < capacity then
    .ok { cells := stack.cells.set stack.height value, height := stack.height + 1, height_le := room }
  else
    .error .overflow

/-- Pushes a double-precision number, which is stored in single precision. -/
def pushRounded {capacity : Nat} (stack : Stack capacity) (value : Float) :
    Except StackError (Stack capacity) :=
  stack.push (Numeric.narrow value)

def pop {capacity : Nat} (stack : Stack capacity) : Except StackError (Float32 × Stack capacity) :=
  if live : 0 < stack.height then
    have below : stack.height - 1 < capacity := by have := stack.height_le; omega
    .ok (stack.cells[stack.height - 1],
      { cells := stack.cells, height := stack.height - 1, height_le := Nat.le_of_lt below })
  else
    .error .underflow

def result {capacity : Nat} (stack : Stack capacity) : Except StackError (Float32 × Stack capacity) :=
  if stack.height = 1 then stack.pop else .error (.itemCount stack.height)

end Stack

end EvoRaster
