import EvoRaster.Machine.Run

/-!
Contract: machines, and the rendering of a program as gray samples.

Owns:
- the machine, code with a buffer of its own that every evaluation reuses;
- `Code.render`, one run per pixel in row-major order, with registers and buffer shared by all runs;
- `sample`, from a program's value to a gray sample.

A pixel's coordinates run from minus one, in steps of two over the extent of the image. An image without
pixels runs nothing.
-/

namespace EvoRaster

/-- A coordinate scaled to run from minus one, included, to one, excluded. -/
def coordinate (position extent : Nat) : Float32 :=
  Float32.ofNat position / Float32.ofNat extent * 2 - 1

/-- Brings a value between minus one and one. What is not at most one, an undefined value included,
becomes one. -/
def clampToUnit (value : Float32) : Float32 :=
  let atMostOne := if value ≤ 1 then value else 1
  if atMostOne < -1 then -1 else atMostOne

/-- The gray sample of a value: minus one is 1, zero is 128 and one is 255. -/
def sample (value : Float32) : UInt8 := (clampToUnit value * 127 + 128).toUInt8

/-- What the runs of one rendering share. -/
structure Workspace where
  registers : Vector Float32 2
  buffer : Vector Float32 Stack.evaluationCapacity

namespace Workspace

def fresh : Workspace :=
  { registers := Vector.replicate 2 0, buffer := Vector.replicate _ 0 }

def setColumn (workspace : Workspace) (x : Float32) : Workspace :=
  { workspace with registers := workspace.registers.set 0 x }

def setRow (workspace : Workspace) (y : Float32) : Workspace :=
  { workspace with registers := workspace.registers.set 1 y }

/-- One run, which leaves its buffer to the next. -/
def run (workspace : Workspace) (code : Code) : Except Fault (Float32 × Workspace) :=
  let (outcome, buffer) := code.run workspace.registers.toArray workspace.buffer
  outcome.map fun value => (value, { registers := workspace.registers, buffer })

end Workspace

namespace Code

def renderRow (code : Code) (width : Nat) :
    List Nat → Workspace → Except Fault (List UInt8 × Workspace)
  | [], workspace => .ok ([], workspace)
  | x :: columns, workspace => do
      let (value, workspace) ← (workspace.setColumn (coordinate x width)).run code
      let (samples, workspace) ← code.renderRow width columns workspace
      return (sample value :: samples, workspace)

def renderRows (code : Code) (width height : Nat) :
    List Nat → Workspace → Except Fault (List UInt8 × Workspace)
  | [], workspace => .ok ([], workspace)
  | y :: rows, workspace => do
      let (first, workspace) ←
        code.renderRow width (List.range width) (workspace.setRow (coordinate y height))
      let (others, workspace) ← code.renderRows width height rows workspace
      return (first ++ others, workspace)

def render (code : Code) (width height : Nat) : Except Fault (List UInt8) := do
  let (samples, _) ← code.renderRows width height (List.range height) Workspace.fresh
  return samples

end Code

/-- Compiled code with the buffer that its evaluations share. -/
structure Machine where
  registers : Int
  code : Code
  buffer : Vector Float32 Stack.evaluationCapacity

inductive RenderError where
  | compile (cause : CompileError)
  | notTwoRegisters
  | fault (cause : Fault)
deriving DecidableEq, Repr

def RenderError.message : RenderError → String
  | .compile cause => cause.message
  | .notTwoRegisters => "Rendering needs exactly two variables (x, y)"
  | .fault cause => cause.message

namespace Machine

/-- Compiles a program for the given number of registers. -/
def ofProgram (registers : Int) (program : Program) : Except CompileError Machine := do
  let code ← Code.ofProgram registers program
  return { registers, code, buffer := Vector.replicate _ 0 }

def evaluate (machine : Machine) (registers : Registers) : Except Fault Float32 × Machine :=
  let (outcome, buffer) := machine.code.run registers machine.buffer
  (outcome, { machine with buffer })

/-- The values at several points, one after the other on the same machine. -/
def evaluateAll (machine : Machine) : List Registers → List (Except Fault Float32)
  | [] => []
  | registers :: rest =>
      let (outcome, machine) := machine.evaluate registers
      outcome :: machine.evaluateAll rest

def render (machine : Machine) (width height : Nat) : Except RenderError (List UInt8) :=
  if machine.registers = 2 then
    (machine.code.render width height).mapError .fault
  else
    .error .notTwoRegisters

end Machine

/-- Compiles a program for the coordinates of a pixel and renders it. -/
def Program.render (program : Program) (registers : Int) (width height : Nat) :
    Except RenderError (List UInt8) := do
  let machine ← (Machine.ofProgram registers program).mapError .compile
  machine.render width height

end EvoRaster
