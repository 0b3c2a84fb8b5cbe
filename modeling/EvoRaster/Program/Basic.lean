import EvoRaster.Program.Instr

/-!
Contract: programs.

A program is the list of its instruction words, in the order in which they run.
-/

namespace EvoRaster

abbrev Program := List Instr

namespace Program

/-- The program of every first-generation individual: it pushes one. -/
def seed : Program := [Instr.const 1]

/-- Two programs hold the same words in the same order. -/
def sameWords (left right : Program) : Bool :=
  left.length == right.length && (left.zip right).all fun pair => pair.1.sameWord pair.2

end Program

end EvoRaster
