import EvoRaster.Proofs.Evaluation.Dependence

/-!
Contract: the static count that decides how an evaluation ends.

Owns:
- `Instr.depthAfter` and `Program.depth`, the number of items on the stack as the opcodes alone count it;
- `Instr.Allowed`, what an instruction asks of the depth and of the registers, and `Instr.fault`, the first thing that
  it misses;
- `Program.verdict`, the count up to the first fault;
- `act_verdict` and `evaluate_verdict`, by which an evaluation ends as the count does;
- `Program.Sound` and `Program.Faults`, in which `verdict_eq_ok_iff` and `verdict_eq_error_iff` read the verdict
  position by position.

The count looks at opcodes, at the indices of `var` and at the number of registers. It never sees a number.
-/

namespace EvoRaster

/-! ## The count -/

/-- The depth after an instruction that was carried out at this depth. -/
def Instr.depthAfter (instr : Instr) (depth : Nat) : Nat :=
  match instr.op with
  | .const | .var | .dup => depth + 1
  | .binary _ => depth - 1
  | .unary _ | .drop => depth

/-- The depth after all instructions of a program, from the given one on. -/
def Program.depth (program : Program) (start : Nat) : Nat :=
  program.foldl (fun depth instr => instr.depthAfter depth) start

/-- The instruction can be carried out at this depth: it has its operands, there is room if it adds an item, and the
register that it reads exists. -/
structure Instr.Allowed (capacity registers depth : Nat) (instr : Instr) : Prop where
  performed : instr.op ≠ .drop
  operands : instr.arity ≤ depth
  room : instr.op = .const ∨ instr.op = .var ∨ instr.op = .dup → depth < capacity
  reads : instr.ReadsWithin registers

def roomFault (capacity depth : Nat) : Option EvalError :=
  if depth < capacity then none else some (.stack .overflow)

def operandFault (arity depth : Nat) : Option EvalError :=
  if arity ≤ depth then none else some (.stack .underflow)

def registerFault (registers : Nat) (index : Int) : Option EvalError :=
  if index < 0 then some (.negativeIndex index)
  else if index < registers then none else some (.noRegister index registers)

/-- The first thing that an instruction misses. A `var` looks for its register before it looks for room, and a `dup`
for its operand. -/
def Instr.fault (capacity registers depth : Nat) (instr : Instr) : Option EvalError :=
  match instr.op with
  | .const => roomFault capacity depth
  | .var => registerFault registers instr.index <|> roomFault capacity depth
  | .binary _ | .unary _ => operandFault instr.arity depth
  | .dup => operandFault instr.arity depth <|> roomFault capacity depth
  | .drop => some .dropRefused

section Faults

variable {capacity registers depth : Nat}

private theorem roomFault_eq_none_iff : roomFault capacity depth = none ↔ depth < capacity := by
  simp [roomFault]

private theorem operandFault_eq_none_iff {arity : Nat} : operandFault arity depth = none ↔ arity ≤ depth := by
  simp [operandFault]

private theorem registerFault_eq_none_iff {index : Int} :
    registerFault registers index = none ↔ 0 ≤ index ∧ index < registers := by
  unfold registerFault
  split
  · simp
    omega
  · simp
    omega

theorem Instr.allowed_iff {instr : Instr} :
    instr.Allowed capacity registers depth ↔
      instr.op ≠ .drop ∧ instr.arity ≤ depth ∧
        (instr.op = .const ∨ instr.op = .var ∨ instr.op = .dup → depth < capacity) ∧ instr.ReadsWithin registers :=
  ⟨fun allowed => ⟨allowed.performed, allowed.operands, allowed.room, allowed.reads⟩,
    fun ⟨performed, operands, room, reads⟩ => ⟨performed, operands, room, reads⟩⟩

/-- An instruction misses nothing exactly where it is allowed. -/
theorem Instr.fault_eq_none_iff {instr : Instr} :
    instr.fault capacity registers depth = none ↔ instr.Allowed capacity registers depth := by
  rw [allowed_iff, ReadsWithin, fault, arity]
  cases instr.op <;>
    simp [roomFault_eq_none_iff, operandFault_eq_none_iff, registerFault_eq_none_iff, and_comm]

/-- A `dup` on an empty stack without room misses its operand first. -/
example : ({ op := .dup } : Instr).fault 0 registers 0 = some (.stack .underflow) := rfl

end Faults

/-- The depth after an instruction, or the first thing that it misses. -/
def Instr.verdict (capacity registers : Nat) (instr : Instr) (depth : Nat) : Except EvalError Nat :=
  (instr.fault capacity registers depth).elim (.ok (instr.depthAfter depth)) .error

/-- The depth after a program, or the first thing that one of its instructions misses. -/
def Program.verdict (capacity registers : Nat) : Program → Nat → Except EvalError Nat
  | [], depth => .ok depth
  | instr :: rest, depth => do
      let depth ← instr.verdict capacity registers depth
      Program.verdict capacity registers rest depth

/-! ## Evaluation follows the count -/

section Act

variable {capacity : Nat} {registers : Registers} {items : List Float32}

private theorem pushItem_verdict (value : Float32) :
    (pushItem capacity value items).map List.length =
      (roomFault capacity items.length).elim (.ok (items.length + 1)) .error := by
  unfold pushItem roomFault
  split <;> rfl

private theorem registerFault_of_read (registers : Registers) (index : Int) :
    registerFault registers.size index =
      match registers.read index with
      | .ok _ => none
      | .error cause => some cause := by
  unfold registerFault Registers.read
  by_cases negative : index < 0
  · rw [if_pos negative, if_pos negative]
  · rw [if_neg negative, if_neg negative]
    by_cases inside : index.toNat < registers.size
    · rw [Array.getElem?_eq_getElem inside, if_pos (by omega)]
    · rw [Array.getElem?_eq_none (Nat.le_of_not_lt inside), if_neg (by omega)]

/-- An instruction does to the number of items what the count says. -/
theorem Instr.act_verdict (instr : Instr) (items : List Float32) :
    (instr.act capacity registers items).map List.length = instr.verdict capacity registers.size items.length := by
  rcases instr with ⟨op, value, index⟩
  cases op with
  | const => exact pushItem_verdict _
  | var =>
      simp only [act, verdict, fault, registerFault_of_read]
      cases registers.read index with
      | error cause => rfl
      | ok value => exact pushItem_verdict value
  | binary operator =>
      rcases items with _ | ⟨right, _ | ⟨left, below⟩⟩
      · rfl
      · rfl
      · rfl
  | unary operator => cases items <;> rfl
  | dup =>
      cases items with
      | nil => rfl
      | cons top below => exact pushItem_verdict _
  | drop => rfl

theorem Program.act_verdict (program : Program) (items : List Float32) :
    (program.act capacity registers items).map List.length =
      program.verdict capacity registers.size items.length := by
  induction program generalizing items with
  | nil => rfl
  | cons instr rest inductionHypothesis =>
      rw [act, verdict, ← instr.act_verdict items, map_bind]
      cases instr.act capacity registers items with
      | error cause => rfl
      | ok next => exact inductionHypothesis next

/-- Exactly one item is asked for at the end. -/
def countItems (depth : Nat) : Except EvalError Unit :=
  if depth = 1 then .ok () else .error (.stack (.itemCount depth))

private theorem answer_verdict (items : List Float32) :
    (Program.answer items).map (fun _ => ()) = countItems items.length := by
  rcases items with _ | ⟨first, _ | ⟨second, rest⟩⟩
  · rfl
  · rfl
  · rfl

/-- Whether an evaluation has a value, and why not, is the verdict on the program. -/
theorem Program.evaluate_verdict (program : Program) (registers : Registers) :
    (program.evaluate registers).map (fun _ => ()) =
      program.verdict Stack.evaluationCapacity registers.size 0 >>= countItems := by
  have verdict : (program.act Stack.evaluationCapacity registers []).map List.length =
      program.verdict Stack.evaluationCapacity registers.size 0 := program.act_verdict []
  rw [evaluate_eq, ← verdict, map_bind]
  cases program.act Stack.evaluationCapacity registers [] with
  | error cause => rfl
  | ok items => exact answer_verdict items

end Act

/-! ## The verdict, position by position -/

namespace Program

variable {capacity registers start : Nat}

/-- Every instruction is allowed at the depth that the instructions before it leave. -/
def Sound (capacity registers start : Nat) (program : Program) : Prop :=
  ∀ before instr after, program = before ++ instr :: after →
    instr.Allowed capacity registers (Program.depth before start)

/-- The first instruction that is not allowed misses something, which is the cause. -/
inductive Faults (capacity registers start : Nat) (program : Program) : EvalError → Prop where
  | intro {before after : Program} {instr : Instr} {cause : EvalError} (split : program = before ++ instr :: after)
      (earlier : before.Sound capacity registers start)
      (fault : instr.fault capacity registers (before.depth start) = some cause) :
      Faults capacity registers start program cause

theorem sound_nil : Sound capacity registers start [] := by
  intro before instr after split
  simp at split

theorem sound_cons {instr : Instr} {rest : Program} :
    Sound capacity registers start (instr :: rest) ↔
      instr.Allowed capacity registers start ∧ rest.Sound capacity registers (instr.depthAfter start) := by
  constructor
  · intro sound
    refine ⟨sound [] instr rest rfl, fun before other after split => ?_⟩
    exact sound (instr :: before) other after (congrArg (instr :: ·) split)
  · rintro ⟨allowed, sound⟩ before other after split
    cases before with
    | nil =>
        cases split
        exact allowed
    | cons first before =>
        cases split
        exact sound before other after rfl

private theorem not_faults_nil {cause : EvalError} : ¬Faults capacity registers start [] cause := by
  rintro ⟨split, -, -⟩
  simp at split

theorem faults_cons {instr : Instr} {rest : Program} {cause : EvalError} :
    Faults capacity registers start (instr :: rest) cause ↔
      instr.fault capacity registers start = some cause ∨
        instr.Allowed capacity registers start ∧ rest.Faults capacity registers (instr.depthAfter start) cause := by
  constructor
  · rintro @⟨before, after, failing, _, split, earlier, fault⟩
    cases before with
    | nil =>
        cases split
        exact .inl fault
    | cons first before =>
        cases split
        obtain ⟨allowed, earlier⟩ := sound_cons.mp earlier
        exact .inr ⟨allowed, .intro rfl earlier fault⟩
  · rintro (fault | ⟨allowed, split, earlier, fault⟩)
    · exact .intro (List.nil_append _).symm sound_nil fault
    · exact .intro (congrArg (instr :: ·) split) (sound_cons.mpr ⟨allowed, earlier⟩) fault

/-- The verdict is a depth where every instruction is allowed. -/
theorem verdict_eq_ok_iff {program : Program} {final : Nat} :
    program.verdict capacity registers start = .ok final ↔
      program.Sound capacity registers start ∧ program.depth start = final := by
  induction program generalizing start with
  | nil => simp [verdict, sound_nil, depth]
  | cons instr rest inductionHypothesis =>
      rw [verdict, sound_cons, ← Instr.fault_eq_none_iff, Instr.verdict]
      cases instr.fault capacity registers start with
      | none =>
          rw [Option.elim_none, ok_bind, inductionHypothesis]
          simp [depth]
      | some cause => simp

/-- The verdict is a cause where the first instruction that is not allowed has it. -/
theorem verdict_eq_error_iff {program : Program} {cause : EvalError} :
    program.verdict capacity registers start = .error cause ↔ program.Faults capacity registers start cause := by
  induction program generalizing start with
  | nil => simp [verdict, not_faults_nil]
  | cons instr rest inductionHypothesis =>
      rw [verdict, faults_cons, ← Instr.fault_eq_none_iff, Instr.verdict]
      cases instr.fault capacity registers start with
      | none =>
          rw [Option.elim_none, ok_bind, inductionHypothesis]
          simp
      | some cause' => simp

section Ends

variable {program : Program}

theorem ends_eq_ok_iff :
    (program.verdict capacity registers start >>= countItems) = .ok () ↔
      program.Sound capacity registers start ∧ program.depth start = 1 := by
  rw [← verdict_eq_ok_iff]
  cases program.verdict capacity registers start with
  | error cause => simp
  | ok final => simp [countItems]

theorem ends_eq_error_iff {cause : EvalError} :
    (program.verdict capacity registers start >>= countItems) = .error cause ↔
      program.Faults capacity registers start cause ∨
        program.Sound capacity registers start ∧ program.depth start ≠ 1 ∧
          cause = .stack (.itemCount (program.depth start)) := by
  rw [← verdict_eq_error_iff]
  have sound_iff : program.Sound capacity registers start ↔
      program.verdict capacity registers start = .ok (program.depth start) := by
    rw [verdict_eq_ok_iff, and_iff_left rfl]
  rw [sound_iff]
  cases found : program.verdict capacity registers start with
  | error first => simp
  | ok final =>
      obtain ⟨-, rfl⟩ := verdict_eq_ok_iff.mp found
      rw [ok_bind, countItems]
      by_cases one : program.depth start = 1
      · simp [one]
      · simp [one, eq_comm]

end Ends

end Program

end EvoRaster
