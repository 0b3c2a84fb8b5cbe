import EvoRaster.Proofs.Evaluation.Items

/-!
Contract: which registers a program may read.

Owns:
- `Program.ReadsWithin`, by which every register that a program names exists;
- evaluations that answer a value have read registers that exist;
- evaluations that read only registers that exist fail for reasons of the stack, or at a `drop`.
-/

namespace EvoRaster

/-- An instruction that reads a register reads one of the first `registers`. -/
def Instr.ReadsWithin (instr : Instr) (registers : Int) : Prop :=
  instr.op = .var → 0 ≤ instr.index ∧ instr.index < registers

/-- The registers that a program reads are among the first `registers`. -/
def Program.ReadsWithin (program : Program) (registers : Int) : Prop :=
  ∀ instr ∈ program, instr.ReadsWithin registers

theorem Registers.read_ok_iff {registers : Registers} {index : Int} :
    (∃ value, registers.read index = .ok value) ↔ 0 ≤ index ∧ index < registers.size := by
  unfold read
  by_cases negative : index < 0
  · rw [if_pos negative]
    constructor
    · intro given
      rcases given with ⟨value, read⟩
      cases read
    · intro given
      rcases given with ⟨least, -⟩
      omega
  · rw [if_neg negative]
    by_cases inside : index.toNat < registers.size
    · rw [Array.getElem?_eq_getElem inside]
      exact ⟨fun _ => by omega, fun _ => ⟨_, rfl⟩⟩
    · rw [Array.getElem?_eq_none (by omega)]
      constructor
      · intro given
        rcases given with ⟨value, read⟩
        cases read
      · intro given
        rcases given with ⟨least, below⟩
        omega

section Act

variable {capacity : Nat} {registers : Registers}

theorem Instr.readsWithin_of_act {instr : Instr} {items after : List Float32}
    (acted : instr.act capacity registers items = .ok after) : instr.ReadsWithin registers.size := by
  intro isVar
  apply Registers.read_ok_iff.mp
  simp only [act, isVar] at acted
  cases read : registers.read instr.index with
  | error cause => rw [read] at acted; cases acted
  | ok value => exact ⟨value, rfl⟩

theorem Program.readsWithin_of_act {program : Program} {items after : List Float32}
    (acted : program.act capacity registers items = .ok after) :
    program.ReadsWithin registers.size := by
  induction program generalizing items with
  | nil => exact fun instr member => absurd member (List.not_mem_nil)
  | cons first rest inductionHypothesis =>
      unfold Program.act at acted
      cases started : first.act capacity registers items with
      | error cause => rw [started] at acted; cases acted
      | ok between =>
          rw [started] at acted
          intro instr member
          rcases List.mem_cons.mp member with rfl | later
          · exact Instr.readsWithin_of_act started
          · exact inductionHypothesis acted instr later

/-- A program that has a value at a point reads registers that the point has. -/
theorem Program.readsWithin_of_evaluate {program : Program} {value : Float32}
    (evaluated : program.evaluate registers = .ok value) : program.ReadsWithin registers.size :=
  readsWithin_of_act (act_of_evaluate evaluated)

private theorem pushItem_error {value : Float32} {items : List Float32} {cause : EvalError}
    (failed : pushItem capacity value items = .error cause) : cause = .stack .overflow := by
  unfold pushItem at failed
  split at failed <;> cases failed
  rfl

/-- A failure that has nothing to do with registers. -/
def EvalError.SparesRegisters : EvalError → Prop
  | .stack _ => True
  | .dropRefused => True
  | .negativeIndex _ => False
  | .noRegister _ _ => False

theorem Instr.act_error {instr : Instr} {items : List Float32} {cause : EvalError}
    (reads : instr.ReadsWithin registers.size)
    (failed : instr.act capacity registers items = .error cause) : cause.SparesRegisters := by
  rcases instr with ⟨op, value, index⟩
  cases op with
  | const =>
      rw [pushItem_error failed]
      trivial
  | var =>
      rcases Registers.read_ok_iff.mpr (reads rfl) with ⟨value, read⟩
      simp only [act, read, ok_bind] at failed
      rw [pushItem_error failed]
      trivial
  | binary operator =>
      match items with
      | [] | [_] => cases failed; trivial
      | _ :: _ :: _ => cases failed
  | unary operator =>
      match items with
      | [] => cases failed; trivial
      | _ :: _ => cases failed
  | dup =>
      match items with
      | [] => cases failed; trivial
      | _ :: _ =>
          rw [pushItem_error failed]
          trivial
  | drop =>
      cases failed
      trivial

theorem Program.act_error {program : Program} {items : List Float32} {cause : EvalError}
    (reads : program.ReadsWithin registers.size)
    (failed : program.act capacity registers items = .error cause) : cause.SparesRegisters := by
  induction program generalizing items with
  | nil => cases failed
  | cons first rest inductionHypothesis =>
      unfold Program.act at failed
      cases started : first.act capacity registers items with
      | error reason =>
          rw [started] at failed
          cases failed
          exact Instr.act_error (reads first List.mem_cons_self) started
      | ok between =>
          rw [started] at failed
          exact inductionHypothesis (fun instr later => reads instr (List.mem_cons_of_mem _ later)) failed

theorem Program.evaluate_error {program : Program} {cause : EvalError}
    (reads : program.ReadsWithin registers.size)
    (failed : program.evaluate registers = .error cause) : cause.SparesRegisters := by
  rw [evaluate_eq] at failed
  cases acted : program.act Stack.evaluationCapacity registers [] with
  | error reason =>
      rw [acted] at failed
      cases failed
      exact act_error reads acted
  | ok items =>
      rw [acted, ok_bind] at failed
      unfold answer at failed
      split at failed <;> cases failed
      trivial

end Act

end EvoRaster
