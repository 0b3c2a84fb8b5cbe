import EvoRaster.Machine.Raster
import EvoRaster.Proofs.Evaluation.Registers

/-!
Contract: the machine and the checked evaluation agree.

Owns:
- `BinaryOp.combine_eq_apply`, by which the operators of both agree;
- the list of numbers that a frame stands for, and what a slot does to it;
- `Code.run_eq`, by which the contents of a borrowed buffer never reach an answer;
- `Code.ofProgram_isOk_iff`, the programs that can be compiled;
- `machine_agrees`, for a machine that is used for one point after the other.

A frame and a checked stack are compared through the numbers they hold. Cells above the live ones do not
count, so a buffer that a failed run has left is as good as a new one.
-/

namespace EvoRaster

/-- The fault that the machine reports where the checked evaluation fails. -/
def EvalError.asFault : EvalError → Fault
  | .stack .underflow => .underflow
  | .stack .overflow => .overflow
  | .stack (.itemCount _) => .itemCount
  | .negativeIndex _ => .noRegister
  | .noRegister _ _ => .noRegister
  | .dropRefused => .dropRefused

/-- The machine's own extremes are those of the checked evaluation. -/
theorem BinaryOp.combine_eq_apply (operator : BinaryOp) (left right : Float32) :
    operator.combine left right = operator.apply left right := by
  cases operator with
  | add | sub | mul => rfl
  | max => exact Numeric.larger_eq_maxNum left right
  | min => exact Numeric.smaller_eq_minNum left right

namespace Frame

variable {capacity : Nat}

/-- The numbers in a frame, topmost first. -/
def items (frame : Frame capacity) : List Float32 := liveItems frame.buffer frame.height

def Step.items : Step capacity → Except Fault (List Float32)
  | .next frame => .ok frame.items
  | .fault cause _ => .error cause

theorem length_items (frame : Frame capacity) : frame.items.length = frame.height :=
  length_liveItems frame.height_le

theorem put_items (frame : Frame capacity) (value : Float32) :
    (frame.put value).items = (pushItem capacity value frame.items).mapError EvalError.asFault := by
  by_cases room : frame.height < capacity
  · rw [put, dif_pos room, pushItem, if_pos (by rw [length_items]; exact room)]
    exact congrArg Except.ok (liveItems_push room value)
  · rw [put, dif_neg room, pushItem, if_neg (by rw [length_items]; exact room)]
    rfl

theorem combine_items (frame : Frame capacity) (operator : BinaryOp) :
    (frame.combine operator).items =
      match frame.items with
      | right :: left :: below => .ok (operator.combine left right :: below)
      | _ => .error .underflow := by
  rcases frame with ⟨buffer, height, bounded⟩
  match height with
  | 0 => rfl
  | 1 =>
      rw [items, liveItems_succ bounded]
      rfl
  | height + 2 =>
      have inside : height < capacity := by omega
      rw [items, liveItems_succ bounded, liveItems_succ inside, combine, dif_pos (by simp)]
      exact congrArg Except.ok (liveItems_push inside _)

theorem transform_items (frame : Frame capacity) (operator : UnaryOp) :
    (frame.transform operator).items =
      match frame.items with
      | top :: below => .ok (operator.apply top :: below)
      | [] => .error .underflow := by
  rcases frame with ⟨buffer, height, bounded⟩
  match height with
  | 0 => rfl
  | height + 1 =>
      rw [items, liveItems_succ bounded, transform, dif_pos (by simp)]
      exact congrArg Except.ok (liveItems_push bounded _)

theorem duplicate_items (frame : Frame capacity) :
    frame.duplicate.items =
      match frame.items with
      | top :: below => (pushItem capacity top (top :: below)).mapError EvalError.asFault
      | [] => .error .underflow := by
  rcases frame with ⟨buffer, height, bounded⟩
  match height with
  | 0 => rfl
  | height + 1 =>
      rw [duplicate, dif_pos (by simp), put_items]
      simp only [items, liveItems_succ bounded]
      rfl

theorem read_of_compiled {registers : Registers} {index : Int} (least : 0 ≤ index)
    (below : index < registers.size) :
    ∃ place : Fin registers.size, position? registers.size index = some place ∧
      registers.read index = .ok registers[place] := by
  have inside : index.toNat < registers.size := by omega
  refine ⟨⟨index.toNat, inside⟩, position?_eq_some_iff.mpr (Or.inl (by simp; omega)), ?_⟩
  rw [Registers.read, if_neg (by omega), Array.getElem?_eq_getElem inside]
  rfl

/-- A compiled instruction does to a frame what the checked evaluator does to its stack. -/
theorem step_items {registers : Registers} {instr : Instr} {slot : Slot} (frame : Frame capacity)
    (compiled : Slot.ofInstr registers.size instr = .ok slot) :
    (frame.step registers slot).items =
      (instr.act capacity registers frame.items).mapError EvalError.asFault := by
  rcases instr with ⟨op, value, index⟩
  cases op with
  | const =>
      cases compiled
      exact put_items frame _
  | var =>
      simp only [Slot.ofInstr] at compiled
      split at compiled
      · rename_i inRange
        cases compiled
        rcases read_of_compiled inRange.1 inRange.2 with ⟨place, named, read⟩
        simp only [step, Op.ofNumber?_number, Instr.act, read, named, ok_bind]
        by_cases room : frame.height < capacity
        · rw [if_pos room]
          exact put_items frame _
        · rw [if_neg room, pushItem, if_neg (by rw [length_items]; exact room)]
          rfl
      · cases compiled
  | binary operator =>
      cases compiled
      simp only [step, Op.ofNumber?_number, Instr.act, combine_items, BinaryOp.combine_eq_apply]
      rcases frame.items with _ | ⟨right, _ | ⟨left, below⟩⟩ <;> rfl
  | unary operator =>
      cases compiled
      simp only [step, Op.ofNumber?_number, Instr.act, transform_items]
      cases frame.items <;> rfl
  | dup =>
      cases compiled
      simp only [step, Op.ofNumber?_number, Instr.act, duplicate_items]
      cases frame.items <;> rfl
  | drop =>
      cases compiled
      rfl

theorem finish_items (frame : Frame capacity) :
    frame.finish = (Program.answer frame.items).mapError EvalError.asFault := by
  rcases frame with ⟨buffer, height, bounded⟩
  match height with
  | 0 => rfl
  | 1 =>
      rw [items, liveItems_succ bounded]
      rfl
  | height + 2 =>
      have inside : height < capacity := by omega
      rw [items, liveItems_succ bounded, liveItems_succ inside, finish, dif_neg (by simp)]
      rfl

end Frame

/-! ## Whole runs -/

namespace Code

theorem runFrom_items {capacity : Nat} {registers : Registers} {program : Program} {code : Code}
    (frame : Frame capacity) (compiled : ofProgram registers.size program = .ok code) :
    (code.runFrom registers frame).1 =
      (program.act capacity registers frame.items >>= Program.answer).mapError EvalError.asFault := by
  induction program generalizing code frame with
  | nil =>
      cases compiled
      exact frame.finish_items
  | cons instr rest inductionHypothesis =>
      rcases mapM_cons_ok compiled with ⟨slot, slots, first, others, rfl⟩
      have stepped := frame.step_items first
      rw [runFrom, Program.act]
      cases acted : instr.act capacity registers frame.items with
      | error cause =>
          rw [acted] at stepped
          cases taken : frame.step registers slot with
          | next after => rw [taken] at stepped; cases stepped
          | fault fault buffer =>
              rw [taken] at stepped
              cases stepped
              rfl
      | ok items =>
          rw [acted] at stepped
          cases taken : frame.step registers slot with
          | next after =>
              rw [taken] at stepped
              cases stepped
              exact inductionHypothesis after others
          | fault fault buffer => rw [taken] at stepped; cases stepped

/-- A run answers what the checked evaluation answers, whatever its buffer held before. -/
theorem run_eq {registers : Registers} {program : Program} {code : Code}
    (compiled : ofProgram registers.size program = .ok code)
    (buffer : Vector Float32 Stack.evaluationCapacity) :
    (code.run registers buffer).1 =
      (program.evaluate registers).mapError EvalError.asFault := by
  rw [run, runFrom_items _ compiled, Program.evaluate_eq]
  rfl

private theorem ofInstr_isOk_iff {registers : Int} {instr : Instr} :
    (∃ slot, Slot.ofInstr registers instr = .ok slot) ↔ instr.ReadsWithin registers := by
  rcases instr with ⟨op, value, index⟩
  cases op with
  | var =>
      simp only [Slot.ofInstr, Instr.ReadsWithin]
      by_cases inRange : 0 ≤ index ∧ index < registers
      · rw [if_pos inRange]
        exact ⟨fun _ _ => inRange, fun _ => ⟨_, rfl⟩⟩
      · rw [if_neg inRange]
        refine ⟨?_, fun reads => absurd (reads trivial) inRange⟩
        intro given
        rcases given with ⟨slot, compiled⟩
        cases compiled
  | const | binary | unary | dup | drop => simp [Slot.ofInstr, Instr.ReadsWithin]

/-- Exactly the programs whose registers exist are compiled. -/
theorem ofProgram_isOk_iff {registers : Int} {program : Program} :
    (∃ code, ofProgram registers program = .ok code) ↔ program.ReadsWithin registers := by
  unfold ofProgram
  rw [mapM_isOk_iff]
  exact forall₂_congr fun _ _ => ofInstr_isOk_iff

end Code

/-! ## One machine for many points -/

namespace Machine

theorem ofProgram_eq (registers : Int) (program : Program) :
    ofProgram registers program = (Code.ofProgram registers program).map fun code =>
      { registers, code, buffer := Vector.replicate _ 0 } := by
  unfold ofProgram
  cases Code.ofProgram registers program <;> rfl

/-- Every point of a series is answered as if the machine had been made for it. -/
theorem evaluateAll_eq (program : Program) {points : List Registers} (machine : Machine)
    (compiled : ∀ point ∈ points, Code.ofProgram point.size program = .ok machine.code) :
    machine.evaluateAll points =
      points.map fun point => (program.evaluate point).mapError EvalError.asFault := by
  induction points generalizing machine with
  | nil => rfl
  | cons point rest inductionHypothesis =>
      have head := Code.run_eq (compiled point List.mem_cons_self) machine.buffer
      have tail := inductionHypothesis
        { machine with buffer := (machine.code.run point machine.buffer).2 }
        fun other later => compiled other (List.mem_cons_of_mem _ later)
      rw [List.map_cons, ← head, ← tail]
      rfl

end Machine

/-! ## Values and failures -/

/-- The machine ends a run with a message. -/
def Reports (answer : Except Fault Float32) (text : String) : Prop :=
  ∃ cause, answer = .error cause ∧ cause.message = text

/-- The machine and the checked evaluation have the same value, or fail for the same reason. -/
structure SameOutcome (reference : Except EvalError Float32) (answer : Except Fault Float32) :
    Prop where
  value : ∀ value, answer = .ok value ↔ reference = .ok value
  underflow : reference = .error (.stack .underflow) ↔ Reports answer "Stack underflow"
  overflow : reference = .error (.stack .overflow) ↔ Reports answer "Stack overflow"
  itemCount : (∃ count, reference = .error (.stack (.itemCount count))) ↔
    Reports answer "Stack should contain exactly 1 item"
  dropRefused : reference = .error .dropRefused ↔ Reports answer "Drop is not implemented"
  spared : ∀ cause, reference = .error cause → cause.SparesRegisters

private theorem sameOutcome_of_spared {reference : Except EvalError Float32}
    (spared : ∀ cause, reference = .error cause → cause.SparesRegisters) :
    SameOutcome reference (reference.mapError EvalError.asFault) := by
  cases reference with
  | ok value => constructor <;> simp [Reports]
  | error cause =>
      have unaffected := spared cause rfl
      match cause with
      | .stack .underflow | .stack .overflow | .stack (.itemCount _) | .dropRefused =>
          constructor <;>
            simp [Reports, EvalError.asFault, Fault.message, EvalError.SparesRegisters]

/-- A machine that is used for one point after the other answers a value exactly where the checked
evaluation of the program does. If the program reads only registers that exist, the machine can be made,
and it fails where the checked evaluation fails, for the same reasons. -/
theorem machine_agrees (registers : Int) (program : Program) (points : List Registers)
    (sized : ∀ point ∈ points, (point.size : Int) = registers) :
    (∀ (position : Nat) (inside : position < points.length) (value : Float32),
      (∃ machine, Machine.ofProgram registers program = .ok machine ∧
          (machine.evaluateAll points)[position]? = some (.ok value)) ↔
        program.evaluate points[position] = .ok value) ∧
      (program.ReadsWithin registers →
        ∃ machine, Machine.ofProgram registers program = .ok machine ∧
          ∀ (position : Nat) (inside : position < points.length),
            ∃ answer, (machine.evaluateAll points)[position]? = some answer ∧
              SameOutcome (program.evaluate points[position]) answer) := by
  -- Compiled code answers every point as the checked evaluation does, up to the name of the failure.
  have answers : ∀ {code : Code}, Code.ofProgram registers program = .ok code →
      ∀ (position : Nat) (inside : position < points.length),
        (Machine.evaluateAll { registers, code, buffer := Vector.replicate _ 0 } points)[position]? =
          some ((program.evaluate points[position]).mapError EvalError.asFault) := by
    intro code compiled position inside
    rw [Machine.evaluateAll_eq program, List.getElem?_map, List.getElem?_eq_getElem inside]
    · rfl
    · intro point member
      rw [sized point member]
      exact compiled
  have made : ∀ {code : Code}, Code.ofProgram registers program = .ok code →
      Machine.ofProgram registers program =
        .ok { registers, code, buffer := Vector.replicate _ 0 } := by
    intro code compiled
    rw [Machine.ofProgram_eq, compiled]
    rfl
  constructor
  · intro position inside value
    have width := sized points[position] (List.getElem_mem inside)
    constructor
    · intro given
      rcases given with ⟨machine, compiled, answered⟩
      cases coded : Code.ofProgram registers program with
      | error cause => rw [Machine.ofProgram_eq, coded] at compiled; cases compiled
      | ok code =>
          rw [made coded] at compiled
          cases compiled
          rw [answers coded position inside, Option.some.injEq] at answered
          exact mapError_eq_ok_iff.mp answered
    · intro evaluated
      have reads := Program.readsWithin_of_evaluate evaluated
      rw [width] at reads
      rcases Code.ofProgram_isOk_iff.mpr reads with ⟨code, coded⟩
      exact ⟨_, made coded, by rw [answers coded position inside, evaluated, mapError_ok]⟩
  · intro reads
    rcases Code.ofProgram_isOk_iff.mpr reads with ⟨code, coded⟩
    refine ⟨_, made coded, fun position inside => ⟨_, answers coded position inside, ?_⟩⟩
    apply sameOutcome_of_spared
    intro cause failed
    have width := sized points[position] (List.getElem_mem inside)
    exact Program.evaluate_error (width ▸ reads) failed

theorem machine_agrees_on_two_points :
    (∀ point ∈ ([#[0, 1], #[1, 0]] : List Registers), (point.size : Int) = 2) ∧
      ∃ machine, Machine.ofProgram 2 [{ op := .var, index := 1 }, Instr.unary .cos] = .ok machine ∧
        ∀ (position : Nat) (inside : position < ([#[0, 1], #[1, 0]] : List Registers).length),
          ∃ answer, (machine.evaluateAll [#[0, 1], #[1, 0]])[position]? = some answer ∧
            SameOutcome
              (Program.evaluate [{ op := .var, index := 1 }, Instr.unary .cos]
                ([#[0, 1], #[1, 0]] : List Registers)[position])
              answer := by
  have sized : ∀ point ∈ ([#[0, 1], #[1, 0]] : List Registers), (point.size : Int) = 2 := by simp
  have reads : Program.ReadsWithin [{ op := .var, index := 1 }, Instr.unary .cos] 2 := by
    simp [Program.ReadsWithin, Instr.ReadsWithin, Instr.unary]
  exact ⟨sized, (machine_agrees 2 _ _ sized).2 reads⟩

end EvoRaster
