import EvoRaster.Proofs.Evaluation.Expression
import EvoRaster.Proofs.Height.Course

/-!
Contract: what the numbers on the stack depend on.

Owns:
- `Expression.dependsOnInput`, and `Program.derive`, which finds the expression that every cell of the stack holds,
  copies included;
- `Program.varying`, the inputs of a program and the operators with an operand that depends on one;
- `derive_of_course`, by which a program that finds its operands finds their expressions;
- `act_of_derive`, by which the numbers on the stack are the values of the expressions;
- `inputs_varying` and `closed_of_derive`: every input varies, and without inputs no expression depends on one.

A copied cell holds the same expression as its original, so the expressions of a program without `drop` name every
operand of every word.
-/

namespace EvoRaster

/-! ## Expressions on the stack -/

/-- An input occurs in the expression. -/
def Expression.dependsOnInput : Expression → Bool
  | literal _ => false
  | input _ => true
  | unary _ _ operand => operand.dependsOnInput
  | binary _ _ left right => left.dependsOnInput || right.dependsOnInput

/-- The number of operands that an instruction takes. -/
def Instr.arity (instr : Instr) : Nat :=
  match instr.op with
  | .binary _ => 2
  | .unary _ => 1
  | .dup => 1
  | .const | .var | .drop => 0

/-- Words with operands are operators. -/
theorem Instr.operator_of_arity {instr : Instr} (operator : 0 < instr.arity) :
    instr.isConst = false ∧ instr.op ≠ .var ∧ instr.op ≠ .drop := by
  unfold arity at operator
  unfold isConst
  cases isOp : instr.op <;> simp [isOp] at operator ⊢

/-- What an instruction makes of the expressions on the stack, topmost first. -/
def Instr.derive (instr : Instr) (stack : List Expression) : Option (List Expression) :=
  match instr.op, stack with
  | .dup, top :: below => some (top :: top :: below)
  | _, stack => instr.grow stack

/-- The word reads an input, or one of its operands depends on an input. -/
def Instr.varies (instr : Instr) (stack : List Expression) : Bool :=
  instr.op = .var || (stack.take instr.arity).any Expression.dependsOnInput

namespace Program

/-- The expressions that a program leaves on the stack, topmost first. -/
def derive : Program → List Expression → Option (List Expression)
  | [], stack => some stack
  | instr :: rest, stack => do
      let stack ← instr.derive stack
      derive rest stack

/-- The words that vary with the inputs, in their order, up to the first one that misses an operand. -/
def varying : Program → List Expression → Program
  | [], _ => []
  | instr :: rest, stack =>
      match instr.derive stack with
      | none => []
      | some next => if instr.varies stack then instr :: varying rest next else varying rest next

theorem derive_append (first second : Program) (stack : List Expression) :
    derive (first ++ second) stack = (first.derive stack).bind second.derive := by
  induction first generalizing stack with
  | nil => rfl
  | cons instr rest inductionHypothesis =>
      rw [List.cons_append, derive, derive]
      cases instr.derive stack with
      | none => rfl
      | some next => exact inductionHypothesis next

end Program

/-- An instruction that finds its operands finds their expressions. -/
private theorem Instr.derive_of_heightAfter {instr : Instr} {stack : List Expression} {next : Nat}
    (stepped : instr.heightAfter stack.length = some next) :
    ∃ after, instr.derive stack = some after ∧ after.length = next := by
  rcases instr with ⟨op, value, index⟩
  cases op with
  | const | var =>
      cases stepped
      exact ⟨_, rfl, rfl⟩
  | drop => cases stepped
  | unary operator | dup =>
      match stack with
      | [] => cases stepped
      | top :: below =>
          cases stepped
          exact ⟨_, rfl, rfl⟩
  | binary operator =>
      match stack with
      | [] | [_] => cases stepped
      | right :: left :: below =>
          cases stepped
          exact ⟨_, rfl, rfl⟩

theorem Instr.arity_le_of_derive {instr : Instr} {stack after : List Expression}
    (derives : instr.derive stack = some after) : instr.arity ≤ stack.length := by
  rcases instr with ⟨op, value, index⟩
  cases op with
  | const | var | drop => exact Nat.zero_le _
  | unary operator | dup =>
      match stack with
      | [] => cases derives
      | top :: below => exact Nat.le_add_left 1 below.length
  | binary operator =>
      match stack with
      | [] | [_] => cases derives
      | right :: left :: below => exact Nat.le_add_left 2 below.length

theorem Program.derive_of_course {program : Program} (stack : List Expression) {final peak : Nat}
    (taken : program.course stack.length = some { final, peak }) :
    ∃ after, program.derive stack = some after ∧ after.length = final := by
  induction program generalizing stack peak with
  | nil =>
      cases taken
      exact ⟨stack, rfl, rfl⟩
  | cons instr rest inductionHypothesis =>
      obtain ⟨next, later, stepped, remaining, -⟩ := course_cons_eq_some_iff.mp taken
      obtain ⟨between, derives, rfl⟩ := Instr.derive_of_heightAfter stepped
      obtain ⟨after, rest, height⟩ := inductionHypothesis between remaining
      exact ⟨after, by rw [derive, derives]; exact rest, height⟩

/-! ## Numbers on the stack -/

section Act

variable {capacity : Nat} {registers : Registers} {items : List Float32}

private theorem pushItem_ok {value : Float32} {below : List Float32}
    (pushed : pushItem capacity value below = .ok items) : items = value :: below := by
  rw [pushItem_eq] at pushed
  split at pushed <;> cases pushed
  rfl

private theorem Registers.eq_of_read {index : Int} {value : Float32} (read : registers.read index = .ok value) :
    value = registers.getD index.toNat 0 := by
  obtain ⟨least, below⟩ := Registers.read_ok_iff.mp ⟨value, read⟩
  exact Except.ok.inj (read.symm.trans (Registers.read_of_inside least below))

/-- If the numbers on the stack are the values of the expressions, they are so after an instruction. -/
theorem Instr.act_of_derive {instr : Instr} {stack after : List Expression} (derives : instr.derive stack = some after)
    (acted : instr.act capacity registers (stack.map (Expression.value registers)) = .ok items) :
    items = after.map (Expression.value registers) := by
  rcases instr with ⟨op, value, index⟩
  cases op with
  | const =>
      cases derives
      exact pushItem_ok acted
  | var =>
      cases derives
      simp only [act] at acted
      cases read : registers.read index with
      | error cause => simp [read] at acted
      | ok number =>
          rw [read, ok_bind] at acted
          rw [pushItem_ok acted, Registers.eq_of_read read]
          rfl
  | drop => cases derives
  | unary operator =>
      cases stack with
      | nil => cases derives
      | cons top below =>
          cases derives
          cases acted
          rw [List.map_cons, Expression.value_unary]
  | dup =>
      cases stack with
      | nil => cases derives
      | cons top below =>
          cases derives
          exact pushItem_ok acted
  | binary operator =>
      rcases stack with _ | ⟨right, _ | ⟨left, below⟩⟩
      · cases derives
      · cases derives
      · cases derives
        cases acted
        rw [List.map_cons, Expression.value_binary]

/-- A run ends with the values of the expressions that the program leaves. -/
theorem Program.act_of_derive {program : Program} {stack after : List Expression}
    (derives : program.derive stack = some after)
    (acted : program.act capacity registers (stack.map (Expression.value registers)) = .ok items) :
    items = after.map (Expression.value registers) := by
  induction program generalizing stack with
  | nil =>
      cases derives
      cases acted
      rfl
  | cons instr rest inductionHypothesis =>
      obtain ⟨between, first, later⟩ := Option.bind_eq_some_iff.mp derives
      cases stepped : instr.act capacity registers (stack.map (Expression.value registers)) with
      | error cause => simp [act, stepped] at acted
      | ok next =>
          rw [act, stepped, ok_bind, Instr.act_of_derive first stepped] at acted
          exact inductionHypothesis later acted

end Act

/-! ## Inputs -/

/-- The words that read inputs. -/
def Program.inputs (program : Program) : Program := program.filter fun word => word.op = .var

/-- A word that does not vary reads no input. -/
theorem Program.inputs_varying {program : Program} {stack after : List Expression}
    (derives : program.derive stack = some after) : (program.varying stack).inputs = program.inputs := by
  induction program generalizing stack with
  | nil => rfl
  | cons instr rest inductionHypothesis =>
      obtain ⟨between, first, later⟩ := Option.bind_eq_some_iff.mp derives
      have remaining := inductionHypothesis later
      simp only [varying, first]
      by_cases varies : instr.varies stack = true
      · rw [if_pos varies, inputs, inputs, List.filter_cons, List.filter_cons, ← inputs, remaining, inputs]
      · have notVar : instr.op ≠ .var := fun isVar => varies (by simp [Instr.varies, isVar])
        rw [if_neg varies, remaining, inputs, inputs, List.filter_cons_of_neg (by simpa using notVar)]

/-- Without inputs in the program no expression depends on one. -/
theorem Instr.closed_of_derive {instr : Instr} {stack after : List Expression} (notVar : instr.op ≠ .var)
    (closed : ∀ expression ∈ stack, expression.dependsOnInput = false) (derives : instr.derive stack = some after) :
    ∀ expression ∈ after, expression.dependsOnInput = false := by
  obtain ⟨op, value, index⟩ := instr
  cases op with
  | const =>
      cases derives
      exact List.forall_mem_cons.mpr ⟨rfl, closed⟩
  | var => exact absurd rfl notVar
  | drop => cases derives
  | unary operator | dup =>
      match stack with
      | [] => cases derives
      | top :: below =>
          cases derives
          simpa [Expression.dependsOnInput] using closed
  | binary operator =>
      match stack with
      | [] | [_] => cases derives
      | right :: left :: below =>
          cases derives
          simp only [List.forall_mem_cons] at closed
          simpa [Expression.dependsOnInput, closed.1, closed.2.1] using closed.2.2

namespace Program

theorem closed_of_derive {program : Program} {stack after : List Expression}
    (noVar : ∀ instr ∈ program, instr.op ≠ .var)
    (closed : ∀ expression ∈ stack, expression.dependsOnInput = false) (derives : program.derive stack = some after) :
    ∀ expression ∈ after, expression.dependsOnInput = false := by
  induction program generalizing stack with
  | nil =>
      cases derives
      exact closed
  | cons instr rest inductionHypothesis =>
      rw [List.forall_mem_cons] at noVar
      obtain ⟨between, first, later⟩ := Option.bind_eq_some_iff.mp derives
      exact inductionHypothesis noVar.2 (Instr.closed_of_derive noVar.1 closed first) later

end Program

end EvoRaster
