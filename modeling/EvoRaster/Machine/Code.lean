import EvoRaster.Program.Basic

/-!
Contract: programs in the form that the machine runs.

Owns:
- the slot, one instruction with an opcode number and both operands in the machine's precision;
- `Code.ofProgram`, which checks that every register exists before anything runs.
-/

namespace EvoRaster

structure Slot where
  opcode : Int
  /-- The number that a constant pushes; zero in any other slot that was compiled. -/
  value : Float32
  /-- The register that a variable pushes; zero in any other slot that was compiled. -/
  index : Int
deriving DecidableEq

abbrev Code := List Slot

inductive CompileError where
  | noRegister (index registers : Int)
deriving DecidableEq, Repr

def CompileError.message : CompileError → String
  | .noRegister index registers => s!"Var({index}) out of range for {registers} variables"

/-- The slot of one instruction, for a machine with the given number of registers. -/
def Slot.ofInstr (registers : Int) (instr : Instr) : Except CompileError Slot :=
  match instr.op with
  | .const => .ok { opcode := instr.op.number, value := instr.constant, index := 0 }
  | .var =>
      if 0 ≤ instr.index ∧ instr.index < registers then
        .ok { opcode := instr.op.number, value := 0, index := instr.index }
      else
        .error (.noRegister instr.index registers)
  | op => .ok { opcode := op.number, value := 0, index := 0 }

/-- The code of a program. The first instruction that cannot be compiled is the error. -/
def Code.ofProgram (registers : Int) (program : Program) : Except CompileError Code :=
  program.mapM (Slot.ofInstr registers)

end EvoRaster
