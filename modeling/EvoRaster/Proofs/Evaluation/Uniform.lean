import EvoRaster.Proofs.Evaluation.Validity
import Mathlib.Data.List.Forall2

/-!
Contract: how an evaluation ends does not depend on the numbers.

Owns:
- `Alike`, two outcomes that fail for the same reason or have values that correspond;
- `Instr.SameShape`, words that differ at most in their constants, and `Program.evaluate_alike`, by which programs of
  such words end alike at points with equally many registers;
- `Program.evaluate_error_of` and `Program.evaluate_ok_of`: a program that fails at one point fails at all points of
  that size, and one that has a value at one point has a value at all of them;
- `Program.evaluate_decided_by_depth`: which programs have a value, and why the others have none.
-/

namespace EvoRaster

/-- Both fail for the same reason, or both succeed with values that correspond. -/
inductive Alike {α : Type} (corresponds : α → α → Prop) :
    Except EvalError α → Except EvalError α → Prop where
  | ok {value value' : α} (same : corresponds value value') : Alike corresponds (.ok value) (.ok value')
  | error (cause : EvalError) : Alike corresponds (.error cause) (.error cause)

private theorem alike_of_map {α : Type} {first second : Except EvalError α}
    (same : first.map (fun _ => ()) = second.map fun _ => ()) : Alike (fun _ _ => True) first second := by
  cases first with
  | error cause =>
      cases second with
      | error cause' =>
          cases same
          exact .error cause
      | ok value => cases same
  | ok value =>
      cases second with
      | error cause => cases same
      | ok value' => exact .ok trivial

/-- The words have the same opcode and read the same register. Their constants may differ. -/
structure Instr.SameShape (instr other : Instr) : Prop where
  op : instr.op = other.op
  index : instr.op = .var → instr.index = other.index

theorem Instr.SameShape.refl (instr : Instr) : instr.SameShape instr := ⟨rfl, fun _ => rfl⟩

theorem Instr.SameShape.verdict_eq {instr other : Instr} (same : instr.SameShape other)
    (capacity registers depth : Nat) :
    instr.verdict capacity registers depth = other.verdict capacity registers depth := by
  obtain ⟨op, value, index⟩ := instr
  obtain ⟨op', value', index'⟩ := other
  obtain rfl : op = op' := same.op
  cases op with
  | var =>
      obtain rfl : index = index' := same.index rfl
      rfl
  | const | binary | unary | dup | drop => rfl

namespace Program

section Points

variable {program program' : Program} {registers registers' : Registers}

private theorem verdict_congr (shape : List.Forall₂ Instr.SameShape program program') (capacity registers depth : Nat) :
    program.verdict capacity registers depth = program'.verdict capacity registers depth := by
  induction shape generalizing depth with
  | nil => rfl
  | cons same _ inductionHypothesis =>
      rw [verdict, verdict, same.verdict_eq]
      congr 1
      funext next
      exact inductionHypothesis next

/-- Whether a program has a value, and why not, depends on its opcodes, on the registers that it names, and on their
number alone. -/
theorem evaluate_alike (shape : List.Forall₂ Instr.SameShape program program')
    (sized : registers.size = registers'.size) :
    Alike (fun _ _ => True) (program.evaluate registers) (program'.evaluate registers') := by
  apply alike_of_map
  rw [evaluate_verdict, evaluate_verdict, sized, verdict_congr shape]

theorem evaluate_alike_at (program : Program) (sized : registers.size = registers'.size) :
    Alike (fun _ _ => True) (program.evaluate registers) (program.evaluate registers') :=
  evaluate_alike (List.forall₂_same.mpr fun instr _ => .refl instr) sized

/-- A program that fails at one point fails at every point of that size, for the same reason. -/
theorem evaluate_error_of (sized : registers.size = registers'.size) {cause : EvalError}
    (failed : program.evaluate registers = .error cause) : program.evaluate registers' = .error cause := by
  have alike := program.evaluate_alike_at sized
  rw [failed] at alike
  generalize program.evaluate registers' = other at alike ⊢
  cases alike
  rfl

/-- A program that has a value at one point has one at every point of that size. -/
theorem evaluate_ok_of (sized : registers.size = registers'.size) {value : Float32}
    (valued : program.evaluate registers = .ok value) : ∃ value', program.evaluate registers' = .ok value' := by
  have alike := program.evaluate_alike_at sized
  rw [valued] at alike
  generalize program.evaluate registers' = other at alike ⊢
  cases alike
  exact ⟨_, rfl⟩

end Points

/-- A program has a value exactly where every instruction is allowed at the depth that the instructions before it leave
and one item is left at the end. Otherwise the first instruction that is not allowed is the cause, or the number of
items is. No constant and no number in a register has a part in it. -/
theorem evaluate_decided_by_depth (program : Program) (registers : Registers) :
    ((∃ value, program.evaluate registers = .ok value) ↔
        program.Sound Stack.evaluationCapacity registers.size 0 ∧ program.depth 0 = 1) ∧
      (∀ cause, program.evaluate registers = .error cause ↔
        program.Faults Stack.evaluationCapacity registers.size 0 cause ∨
          program.Sound Stack.evaluationCapacity registers.size 0 ∧ program.depth 0 ≠ 1 ∧
            cause = .stack (.itemCount (program.depth 0))) ∧
      ∀ (program' : Program) (registers' : Registers), List.Forall₂ Instr.SameShape program program' →
        registers.size = registers'.size →
          Alike (fun _ _ => True) (program.evaluate registers) (program'.evaluate registers') := by
  refine ⟨?_, fun cause => ?_, fun program' registers' shape sized => evaluate_alike shape sized⟩
  · have ended : (∃ value, program.evaluate registers = .ok value) ↔
        (program.evaluate registers).map (fun _ => ()) = .ok () := by
      simp [map_eq_ok_iff]
    rw [ended, evaluate_verdict, ends_eq_ok_iff]
  · have failed : program.evaluate registers = .error cause ↔
        (program.evaluate registers).map (fun _ => ()) = .error cause := map_eq_error_iff.symm
    rw [failed, evaluate_verdict, ends_eq_error_iff]

end Program

end EvoRaster
