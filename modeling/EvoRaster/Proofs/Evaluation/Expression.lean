import EvoRaster.Proofs.Evaluation.Registers

/-!
Contract: programs without `dup` are expressions in postorder.

Owns:
- `Expression`, whose nodes carry the operand fields of their words, and `Expression.postorder`;
- `Expression.value`, which is computed without a stack, and `Expression.need`, the height that it costs;
- `act_postorder`, by which an expression leaves its value on any stack that has room for its need;
- `Program.grow`, which finds the expressions again, and `postorder_correspondence`.

An operator names its left operand first. A left operand waits on the stack while the right one is computed.
-/

namespace EvoRaster

/-! ## Expressions -/

/-- The operand fields of a word. -/
structure Fields where
  value : Float := 0
  index : Int := 0

inductive Expression where
  | literal (fields : Fields)
  | input (fields : Fields)
  | unary (operator : UnaryOp) (fields : Fields) (operand : Expression)
  | binary (operator : BinaryOp) (fields : Fields) (left right : Expression)

/-- The word of an opcode with the given operand fields. -/
def Fields.word (fields : Fields) (op : Op) : Instr :=
  { op, value := fields.value, index := fields.index }

namespace Expression

/-- The words of an expression, operands before their operator. -/
def postorder : Expression → Program
  | literal fields => [fields.word .const]
  | input fields => [fields.word .var]
  | unary operator fields operand => operand.postorder ++ [fields.word (.unary operator)]
  | binary operator fields left right =>
      left.postorder ++ (right.postorder ++ [fields.word (.binary operator)])

/-- The number of cells that it takes to compute an expression. -/
def need : Expression → Nat
  | literal _ => 1
  | input _ => 1
  | unary _ _ operand => operand.need
  | binary _ _ left right => max left.need (1 + right.need)

/-- The registers that an expression reads exist. -/
def ReadsWithin (registers : Int) : Expression → Prop
  | literal _ => True
  | input fields => 0 ≤ fields.index ∧ fields.index < registers
  | unary _ _ operand => operand.ReadsWithin registers
  | binary _ _ left right => left.ReadsWithin registers ∧ right.ReadsWithin registers

/-- The value of an expression. Registers that do not exist count as zero. -/
def value (registers : Registers) : Expression → Float32
  | literal fields => Numeric.narrow fields.value
  | input fields => registers.getD fields.index.toNat 0
  | unary .cos _ operand => (operand.value registers * Numeric.radiansPerTurn).cos
  | unary .sin _ operand => (operand.value registers * Numeric.radiansPerTurn).sin
  | unary .atan _ operand => (operand.value registers).atan
  | binary .add _ left right => left.value registers + right.value registers
  | binary .sub _ left right => left.value registers - right.value registers
  | binary .mul _ left right => left.value registers * right.value registers
  | binary .max _ left right => Numeric.maxNum (left.value registers) (right.value registers)
  | binary .min _ left right => Numeric.minNum (left.value registers) (right.value registers)

theorem value_unary (registers : Registers) (operator : UnaryOp) (fields : Fields)
    (operand : Expression) :
    (unary operator fields operand).value registers = operator.apply (operand.value registers) := by
  cases operator <;> rfl

theorem value_binary (registers : Registers) (operator : BinaryOp) (fields : Fields)
    (left right : Expression) :
    (binary operator fields left right).value registers =
      operator.apply (left.value registers) (right.value registers) := by
  cases operator <;> rfl

end Expression

/-! ## Registers -/

theorem Program.readsWithin_append {first second : Program} {registers : Int} :
    ReadsWithin (first ++ second) registers ↔
      first.ReadsWithin registers ∧ second.ReadsWithin registers := by
  simp only [ReadsWithin, List.mem_append, or_imp, forall_and]

theorem Program.readsWithin_singleton {instr : Instr} {registers : Int} :
    ReadsWithin [instr] registers ↔ instr.ReadsWithin registers := by
  simp only [ReadsWithin, List.mem_singleton, forall_eq]

theorem Expression.readsWithin_postorder {expression : Expression} {registers : Int} :
    expression.postorder.ReadsWithin registers ↔ expression.ReadsWithin registers := by
  induction expression with
  | literal | input =>
      simp [postorder, Program.readsWithin_singleton, Instr.ReadsWithin, ReadsWithin, Fields.word]
  | unary operator fields operand inductionHypothesis =>
      rw [postorder, Program.readsWithin_append, inductionHypothesis]
      simp [Program.readsWithin_singleton, Instr.ReadsWithin, ReadsWithin, Fields.word]
  | binary operator fields left right leftHypothesis rightHypothesis =>
      rw [postorder, Program.readsWithin_append, Program.readsWithin_append, leftHypothesis,
        rightHypothesis]
      simp [Program.readsWithin_singleton, Instr.ReadsWithin, ReadsWithin, Fields.word]

/-! ## Values on the stack -/

theorem Registers.read_of_inside {registers : Registers} {index : Int} (least : 0 ≤ index)
    (below : index < registers.size) : registers.read index = .ok (registers.getD index.toNat 0) := by
  have inside : index.toNat < registers.size := by omega
  rw [read, if_neg (by omega), Array.getElem?_eq_getElem inside, Array.getD, dif_pos inside]
  rfl

section Act

variable {capacity : Nat} {registers : Registers}

theorem Program.act_singleton (instr : Instr) (items : List Float32) :
    act capacity registers [instr] items = instr.act capacity registers items := by
  rw [act]
  cases instr.act capacity registers items <;> rfl

theorem pushItem_eq (value : Float32) (items : List Float32) :
    pushItem capacity value items =
      if items.length + 1 ≤ capacity then .ok (value :: items) else .error (.stack .overflow) := rfl

/-- An expression leaves its value on top of what was there, or overflows a stack that lacks the room. -/
theorem Program.act_postorder (expression : Expression) (items : List Float32)
    (reads : expression.ReadsWithin registers.size) :
    expression.postorder.act capacity registers items =
      if items.length + expression.need ≤ capacity then .ok (expression.value registers :: items)
      else .error (.stack .overflow) := by
  induction expression generalizing items with
  | literal fields =>
      rw [Expression.postorder, act_singleton]
      exact pushItem_eq _ items
  | input fields =>
      have read := Registers.read_of_inside reads.1 reads.2
      simp only [Expression.postorder, act_singleton, Instr.act, Fields.word, read, ok_bind]
      exact pushItem_eq _ items
  | unary operator fields operand inductionHypothesis =>
      rw [Expression.postorder, act_append, inductionHypothesis items reads, Expression.need,
        Expression.value_unary]
      split <;> rfl
  | binary operator fields left right leftHypothesis rightHypothesis =>
      have right' := rightHypothesis (left.value registers :: items) reads.2
      rw [List.length_cons] at right'
      rw [Expression.postorder, act_append, leftHypothesis items reads.1, Expression.need,
        Expression.value_binary]
      -- The left value stands below while the right operand is computed.
      by_cases leftRoom : items.length + left.need ≤ capacity
      · rw [if_pos leftRoom, ok_bind, act_append, right']
        by_cases rightRoom : items.length + 1 + right.need ≤ capacity
        · rw [if_pos rightRoom, if_pos (by omega)]
          rfl
        · rw [if_neg rightRoom, if_neg (by omega)]
          rfl
      · rw [if_neg leftRoom, if_neg (by omega), error_bind]

theorem Program.evaluate_postorder (expression : Expression)
    (reads : expression.ReadsWithin registers.size) :
    expression.postorder.evaluate registers =
      if expression.need ≤ Stack.evaluationCapacity then .ok (expression.value registers)
      else .error (.stack .overflow) := by
  rw [evaluate_eq, act_postorder expression [] reads, List.length_nil, Nat.zero_add]
  split <;> rfl

end Act

/-! ## Finding the expressions of a program -/

/-- What a word makes of the expressions before it, the last one first. -/
def Instr.grow (instr : Instr) (forest : List Expression) : Option (List Expression) :=
  let fields : Fields := { value := instr.value, index := instr.index }
  match instr.op, forest with
  | .const, forest => some (.literal fields :: forest)
  | .var, forest => some (.input fields :: forest)
  | .unary operator, operand :: forest => some (.unary operator fields operand :: forest)
  | .binary operator, right :: left :: forest => some (.binary operator fields left right :: forest)
  | _, _ => none

namespace Program

/-- The expressions that a program leaves after the given ones, the last one first. -/
def grow : Program → List Expression → Option (List Expression)
  | [], forest => some forest
  | instr :: rest, forest => do
      let forest ← instr.grow forest
      grow rest forest

/-- The words of several expressions, the last of which stands first. -/
def ofForest (forest : List Expression) : Program := forest.reverse.flatMap Expression.postorder

private theorem ofForest_cons (expression : Expression) (forest : List Expression) :
    ofForest (expression :: forest) = ofForest forest ++ expression.postorder := by
  simp [ofForest]

/-- An expression is found in its words, whatever stands around them. -/
theorem grow_postorder (expression : Expression) (forest : List Expression) (rest : Program) :
    grow (expression.postorder ++ rest) forest = grow rest (expression :: forest) := by
  induction expression generalizing forest rest with
  | literal | input => rfl
  | unary operator fields operand inductionHypothesis =>
      rw [Expression.postorder, List.append_assoc, inductionHypothesis]
      rfl
  | binary operator fields left right leftHypothesis rightHypothesis =>
      rw [Expression.postorder, List.append_assoc, leftHypothesis, List.append_assoc, rightHypothesis]
      rfl

/-- One program is in postorder of one expression at most. -/
theorem postorder_injective : Function.Injective Expression.postorder := by
  intro left right same
  have found (expression : Expression) : grow expression.postorder [] = some [expression] := by
    have grown := grow_postorder expression [] []
    rwa [List.append_nil] at grown
  have both := (found left).symm.trans (same ▸ found right)
  simpa using both

end Program

/-! ## Growth -/

/-- Growing loses no words and adds none. -/
theorem Instr.ofForest_of_grow {instr : Instr} {forest grown : List Expression}
    (grows : instr.grow forest = some grown) :
    Program.ofForest grown = Program.ofForest forest ++ [instr] := by
  obtain ⟨op, value, index⟩ := instr
  cases op with
  | const | var =>
      cases grows
      exact Program.ofForest_cons _ forest
  | unary operator =>
      cases forest with
      | nil => cases grows
      | cons operand forest =>
          cases grows
          simp [Program.ofForest_cons, Expression.postorder, Fields.word]
  | binary operator =>
      match forest with
      | [] | [_] => cases grows
      | right :: left :: forest =>
          cases grows
          simp [Program.ofForest_cons, Expression.postorder, Fields.word]
  | drop | dup => cases grows

/-- Where a word other than `dup` finds its operands, it finds them among the expressions too. -/
theorem Instr.grow_of_act {capacity : Nat} {registers : Registers} {instr : Instr}
    {items after : List Float32} {forest : List Expression} (notDup : instr.op ≠ .dup)
    (acted : instr.act capacity registers items = .ok after) (sameCount : forest.length = items.length) :
    ∃ grown, instr.grow forest = some grown ∧ grown.length = after.length := by
  obtain ⟨op, value, index⟩ := instr
  have pushed {value : Float32} (result : pushItem capacity value items = .ok after) :
      forest.length + 1 = after.length := by
    rw [pushItem_eq] at result
    split at result
    · cases result
      rw [List.length_cons, sameCount]
    · cases result
  cases op with
  | const => exact ⟨_, rfl, pushed acted⟩
  | var =>
      simp only [act] at acted
      cases read : registers.read index with
      | error cause => simp [read] at acted
      | ok value => exact ⟨_, rfl, pushed (by simpa [read] using acted)⟩
  | unary operator =>
      obtain _ | ⟨top, items⟩ := items
      · cases acted
      · obtain ⟨operand, forest, rfl⟩ := List.exists_cons_of_length_eq_add_one sameCount
        cases acted
        exact ⟨_, rfl, sameCount⟩
  | binary operator =>
      obtain _ | ⟨first, _ | ⟨second, items⟩⟩ := items
      · cases acted
      · cases acted
      · obtain ⟨right, forest, rfl⟩ := List.exists_cons_of_length_eq_add_one sameCount
        obtain ⟨left, forest, rfl⟩ := List.exists_cons_of_length_eq_add_one (Nat.succ.inj sameCount)
        cases acted
        exact ⟨_, rfl, by simpa using sameCount⟩
  | drop => cases acted
  | dup => exact absurd rfl notDup

namespace Program

theorem ofForest_of_grow {program : Program} {forest grown : List Expression}
    (grows : program.grow forest = some grown) : ofForest grown = ofForest forest ++ program := by
  induction program generalizing forest with
  | nil =>
      cases grows
      rw [List.append_nil]
  | cons instr rest inductionHypothesis =>
      obtain ⟨between, first, later⟩ := Option.bind_eq_some_iff.mp grows
      rw [inductionHypothesis later, Instr.ofForest_of_grow first, List.append_assoc,
        List.singleton_append]

theorem grow_of_act {capacity : Nat} {registers : Registers} {program : Program}
    {items after : List Float32} {forest : List Expression}
    (dupFree : ∀ instr ∈ program, instr.op ≠ .dup)
    (acted : program.act capacity registers items = .ok after)
    (sameCount : forest.length = items.length) :
    ∃ grown, program.grow forest = some grown ∧ grown.length = after.length := by
  induction program generalizing items forest with
  | nil =>
      cases acted
      exact ⟨forest, rfl, sameCount⟩
  | cons instr rest inductionHypothesis =>
      rw [List.forall_mem_cons] at dupFree
      cases started : instr.act capacity registers items with
      | error cause => simp [act, started] at acted
      | ok between =>
          obtain ⟨next, grows, count⟩ := Instr.grow_of_act dupFree.1 started sameCount
          obtain ⟨grown, later, sameLength⟩ :=
            inductionHypothesis dupFree.2 (by simpa [act, started] using acted) count
          exact ⟨grown, by rw [grow, grows]; exact later, sameLength⟩

/-- A program without `dup` that has a value is in postorder of an expression. -/
private theorem exists_postorder_of_evaluate {program : Program} {registers : Registers} {value : Float32}
    (dupFree : ∀ instr ∈ program, instr.op ≠ .dup)
    (evaluated : program.evaluate registers = .ok value) :
    ∃ expression : Expression, expression.postorder = program := by
  have sameCount : ([] : List Expression).length = ([] : List Float32).length := rfl
  obtain ⟨grown, grows, count⟩ := grow_of_act dupFree (act_of_evaluate evaluated) sameCount
  rw [List.length_singleton, List.length_eq_one_iff] at count
  obtain ⟨expression, rfl⟩ := count
  exact ⟨expression, by simpa [ofForest] using ofForest_of_grow grows⟩

/-- Expressions that the stack has room for are the programs without `dup` that have a value. -/
theorem postorder_correspondence (registers : Registers) :
    (∀ expression : Expression, expression.ReadsWithin registers.size →
      expression.postorder.evaluate registers =
        if expression.need ≤ 64 then .ok (expression.value registers)
        else .error (.stack .overflow)) ∧
    ∀ program : Program, (∀ instr ∈ program, instr.op ≠ .dup) →
      ∀ value, program.evaluate registers = .ok value →
        ∃ expression : Expression, expression.postorder = program ∧
          (∀ other : Expression, other.postorder = program → other = expression) ∧
          expression.ReadsWithin registers.size ∧ expression.need ≤ 64 ∧
          expression.value registers = value := by
  constructor
  · intro expression reads
    exact evaluate_postorder expression reads
  · intro program dupFree value evaluated
    obtain ⟨expression, rfl⟩ := exists_postorder_of_evaluate dupFree evaluated
    have reads := Expression.readsWithin_postorder.mp (readsWithin_of_evaluate evaluated)
    have computed := evaluate_postorder expression reads
    rw [evaluated] at computed
    split at computed
    · rename_i room
      exact ⟨expression, rfl, fun other same => postorder_injective same, reads, room,
        (Except.ok.inj computed).symm⟩
    · cases computed

end Program

/-! ## The limit -/

/-- A sum that leans to the right, so that all its operands wait for the last one. -/
def Expression.leaning : Nat → Expression
  | 0 => input {}
  | count + 1 => binary .add {} (input {}) (leaning count)

private theorem Expression.need_leaning (count : Nat) : (leaning count).need = count + 1 := by
  induction count with
  | zero => rfl
  | succ count inductionHypothesis =>
      rw [leaning, need, inductionHypothesis, need]
      omega

private theorem Expression.leaning_readsWithin (count : Nat) : (leaning count).ReadsWithin 1 := by
  have lone : (input {}).ReadsWithin 1 := ⟨Int.le_refl 0, Int.one_pos⟩
  induction count with
  | zero => exact lone
  | succ count inductionHypothesis => exact ⟨lone, inductionHypothesis⟩

/-- The stack has room for 64 operands of a sum and not for 65. The words of a difference are those of one
expression. -/
theorem Program.postorder_correspondence_at_limit :
    (Expression.leaning 63).postorder.evaluate #[2] = .ok ((Expression.leaning 63).value #[2]) ∧
      (Expression.leaning 64).postorder.evaluate #[2] = .error (.stack .overflow) ∧
      ∃ expression : Expression,
        expression.postorder =
          [{ op := .var }, { op := .const, value := 1 }, Instr.binary .sub] ∧
        expression.value #[2] = 2 - Numeric.narrow 1 := by
  have correspondence := postorder_correspondence #[2]
  have fits := correspondence.1 (.leaning 63) (Expression.leaning_readsWithin 63)
  have tall := correspondence.1 (.leaning 64) (Expression.leaning_readsWithin 64)
  rw [Expression.need_leaning] at fits tall
  have difference := correspondence.1 (.binary .sub {} (.input {}) (.literal { value := 1 }))
    ⟨⟨Int.le_refl 0, Int.one_pos⟩, trivial⟩
  obtain ⟨expression, words, -, -, -, value⟩ := correspondence.2 _
    (by simp [Expression.postorder, Fields.word]) _ difference
  exact ⟨fits, tall, expression, words, value⟩

end EvoRaster
