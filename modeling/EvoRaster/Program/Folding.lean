import EvoRaster.Program.Basic
import EvoRaster.Program.Operator

/-!
Contract: constant folding.

Owns:
- the folded prefix, whose newest word stands first and acts as the top of a symbolic stack;
- `Program.fold`, the program with every operator on constants carried out.

Words move one by one from the program to the folded prefix. An operator whose operands are already
constants there is carried out in the precision of the stack and replaces them; a duplicated constant
becomes two. Every other word is kept with both of its operand fields. There is no folding of `drop`.
-/

namespace EvoRaster

inductive FoldError where
  | dropRefused
  | noConstantOnTop
deriving DecidableEq, Repr

def FoldError.message : FoldError → String
  | .dropRefused => "Drop not done"
  | .noConstantOnTop => "pop_const: Not a const on top"

/-- The part that is folded so far, newest word first. -/
abbrev FoldedPrefix := List Instr

namespace FoldedPrefix

def endsInConstant : FoldedPrefix → Bool
  | [] => false
  | newest :: _ => newest.isConst

def endsInTwoConstants : FoldedPrefix → Bool
  | newest :: second :: _ => newest.isConst && second.isConst
  | _ => false

/-- Takes the constant that was added last. -/
def takeConstant : FoldedPrefix → Except FoldError (Float32 × FoldedPrefix)
  | [] => .error .noConstantOnTop
  | newest :: older =>
      if newest.isConst then .ok (newest.constant, older) else .error .noConstantOnTop

def extend (folded : FoldedPrefix) (instr : Instr) : Except FoldError FoldedPrefix :=
  match instr.op with
  | .const => .ok (instr :: folded)
  | .var => .ok (instr :: folded)
  | .binary operator =>
      if folded.endsInTwoConstants then do
        let (right, folded) ← folded.takeConstant
        let (left, folded) ← folded.takeConstant
        return Instr.literal (operator.apply left right) :: folded
      else
        .ok (instr :: folded)
  | .unary operator =>
      if folded.endsInConstant then do
        let (operand, folded) ← folded.takeConstant
        return Instr.literal (operator.apply operand) :: folded
      else
        .ok (instr :: folded)
  | .dup =>
      if folded.endsInConstant then do
        let (value, folded) ← folded.takeConstant
        return Instr.literal value :: Instr.literal value :: folded
      else
        .ok (instr :: folded)
  | .drop => .error .dropRefused

end FoldedPrefix

/-- An equivalent program without operators on constants. -/
def Program.fold (program : Program) : Except FoldError Program := do
  let folded ← program.foldlM FoldedPrefix.extend []
  return folded.reverse

end EvoRaster
