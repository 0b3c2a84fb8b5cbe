import EvoRaster.Variation.Rule

/-!
Contract: mutation of a program.

One position is drawn, every position equally likely, and the word there gives way to the words that its rule
draws. A program that is empty and a machine without registers are refused before anything is drawn.
-/

namespace EvoRaster

namespace Program

/-- The program with the word at a position replaced by other words. -/
def splice (program : Program) (position : Nat) (replacement : List Instr) : Program :=
  program.take position ++ replacement ++ program.drop (position + 1)

def mutate (program : Program) (registers : Int) : Variation Program := do
  if program.isEmpty then throw .emptyProgram
  if registers < 1 then throw (.noRegisters registers)
  let position ← Draw.below program.length
  let replacement ← Rule.replace program[position] registers
  return program.splice position replacement

def mutateTimes (program : Program) (registers : Int) : Nat → Variation Program
  | 0 => return program
  | times + 1 => do
      let program ← program.mutate registers
      program.mutateTimes registers times

end Program

end EvoRaster
