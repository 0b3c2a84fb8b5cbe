import EvoRaster.Proofs.Evaluation.Items
import EvoRaster.Proofs.Folding.Contraction
import EvoRaster.Proofs.Precision.Widening

/-!
Contract: folding keeps what a program does.

Owns:
- `Follows`, the relation between an outcome and the outcome after folding;
- `Contracts.follows`, with one lemma for each of the three contractions;
- `FoldedPrefix.extend_follows`, by which adding a word to a prefix keeps the relation;
- `Program.fold_preserves`, for whole programs.

A fold makes the stack at most as high as before. So an overflow may disappear, and nothing else changes.
-/

namespace EvoRaster

/-! ## Outcomes before and after folding -/

/-- The outcome after folding is the one before, unless that was an overflow. -/
def Follows {α : Type} (original folded : Except EvalError α) : Prop :=
  original = .error (.stack .overflow) ∨ folded = original

namespace Follows

variable {α β : Type} {first second third : Except EvalError α}

theorem refl (outcome : Except EvalError α) : Follows outcome outcome := Or.inr rfl

theorem trans (earlier : Follows first second) (later : Follows second third) :
    Follows first third := by
  rcases earlier with overflowed | rfl
  · exact Or.inl overflowed
  · exact later

/-- The steps that come after a fold. -/
theorem bind_right (related : Follows first second) (next : α → Except EvalError β) :
    Follows (first >>= next) (second >>= next) := by
  rcases related with overflowed | rfl
  · exact Or.inl (by rw [overflowed, error_bind])
  · exact refl _

/-- The steps that come before a fold. -/
private theorem bind_left (before : Except EvalError α) {next folded : α → Except EvalError β}
    (related : ∀ value, Follows (next value) (folded value)) :
    Follows (before >>= next) (before >>= folded) := by
  cases before with
  | error cause => exact refl _
  | ok value => exact related value

end Follows

/-! ## Single folds -/

theorem Instr.constant_literal (value : Float32) : (Instr.literal value).constant = value := by
  change Numeric.narrow (Numeric.widen (Numeric.narrow (Numeric.widen value))) = value
  rw [Numeric.narrow_widen, Numeric.narrow_widen]

section Folds

variable (capacity : Nat) (registers : Registers) (items : List Float32)

theorem Instr.act_isConst {instr : Instr} (constant : instr.isConst = true) :
    instr.act capacity registers items = pushItem capacity instr.constant items := by
  rw [isConst, decide_eq_true_iff] at constant
  unfold act
  simp only [constant]

theorem Instr.act_literal (value : Float32) :
    (Instr.literal value).act capacity registers items = pushItem capacity value items := by
  rw [act_isConst capacity registers items rfl, constant_literal]

/-- An operator on two constants. If the second constant does not fit, the original overflows. -/
private theorem binary_follows {left right instr : Instr} {operator : BinaryOp} (isLeft : left.isConst = true)
    (isRight : right.isConst = true) (isOperator : instr.op = .binary operator) :
    Follows (Program.act capacity registers [left, right, instr] items)
      (Program.act capacity registers
        [Instr.literal (operator.apply left.constant right.constant)] items) := by
  simp only [Program.act, Instr.act_isConst _ _ _ isLeft, Instr.act_isConst _ _ _ isRight,
    Instr.act_literal, pushItem]
  by_cases room : items.length < capacity
  · by_cases more : items.length + 1 < capacity
    · exact Or.inr (by simp [room, more, Instr.act, isOperator])
    · exact Or.inl (by simp [room, more])
  · exact Or.inl (by simp [room])

private theorem unary_follows {operand instr : Instr} {operator : UnaryOp} (isOperand : operand.isConst = true)
    (isOperator : instr.op = .unary operator) :
    Follows (Program.act capacity registers [operand, instr] items)
      (Program.act capacity registers [Instr.literal (operator.apply operand.constant)] items) := by
  simp only [Program.act, Instr.act_isConst _ _ _ isOperand, Instr.act_literal, pushItem]
  by_cases room : items.length < capacity
  · exact Or.inr (by simp [room, Instr.act, isOperator])
  · exact Or.inl (by simp [room])

/-- A copied constant. Here nothing is gained, so the stack is full at the same place. -/
private theorem dup_follows {operand instr : Instr} (isOperand : operand.isConst = true)
    (isDup : instr.op = .dup) :
    Follows (Program.act capacity registers [operand, instr] items)
      (Program.act capacity registers
        [Instr.literal operand.constant, Instr.literal operand.constant] items) := by
  simp only [Program.act, Instr.act_isConst _ _ _ isOperand, Instr.act_literal, pushItem]
  by_cases room : items.length < capacity
  · exact Or.inr (by simp [room, Instr.act, isDup, pushItem])
  · exact Or.inl (by simp [room])

theorem Contracts.follows {redex words : List Instr} (contracts : Contracts redex words) :
    Follows (Program.act capacity registers redex items) (Program.act capacity registers words items) := by
  cases contracts with
  | binary isLeft isRight isOperator =>
      exact binary_follows capacity registers items isLeft isRight isOperator
  | unary isOperand isOperator => exact unary_follows capacity registers items isOperand isOperator
  | dup isOperand isDup => exact dup_follows capacity registers items isOperand isDup

end Folds

/-! ## Folding word by word -/

namespace FoldedPrefix

/-- The three folds put one word or two in the place of the newest words. -/
private theorem act_reverse_append (capacity : Nat) (registers : Registers) (older : FoldedPrefix)
    (words : List Instr) (items : List Float32) :
    Program.act capacity registers (List.reverse older ++ words) items =
      Program.act capacity registers (List.reverse older) items >>= Program.act capacity registers words :=
  Program.act_append capacity registers _ _ items

/-- Adding a word to a prefix does what the word does after the prefix. -/
theorem extend_follows (folded : FoldedPrefix) {instr : Instr} (notDrop : instr.op ≠ .drop) :
    ∃ longer, folded.extend instr = .ok longer ∧
      ∀ capacity registers items,
        Follows (Program.act capacity registers (List.reverse folded ++ [instr]) items)
          (Program.act capacity registers (List.reverse longer) items) := by
  obtain ⟨longer, extended, ⟨-, rfl⟩ | ⟨older, operands, words, contracts, rfl, rfl⟩⟩ :=
    folded.extend_cases notDrop
  · refine ⟨_, extended, fun capacity registers items => ?_⟩
    rw [List.reverse_cons]
    exact Follows.refl _
  · refine ⟨_, extended, fun capacity registers items => ?_⟩
    rw [List.reverse_append, List.reverse_append, List.reverse_reverse, List.reverse_reverse,
      List.append_assoc, act_reverse_append, act_reverse_append]
    exact Follows.bind_left _ fun numbers => contracts.follows capacity registers numbers

/-- The words that are left move to the prefix one after the other. -/
theorem foldlM_follows (rest : Program) (folded : FoldedPrefix)
    (noDrop : ∀ instr ∈ rest, instr.op ≠ .drop) :
    ∃ final, rest.foldlM extend folded = .ok final ∧
      ∀ capacity registers items,
        Follows (Program.act capacity registers (List.reverse folded ++ rest) items)
          (Program.act capacity registers (List.reverse final) items) := by
  induction rest generalizing folded with
  | nil =>
      refine ⟨folded, rfl, fun capacity registers items => ?_⟩
      rw [List.append_nil]
      exact Follows.refl _
  | cons instr rest inductionHypothesis =>
      rcases folded.extend_follows (noDrop instr List.mem_cons_self) with ⟨longer, extended, one⟩
      rcases inductionHypothesis longer
          fun other later => noDrop other (List.mem_cons_of_mem _ later) with
        ⟨final, finished, others⟩
      refine ⟨final, by rw [List.foldlM_cons, extended, ok_bind, finished], ?_⟩
      intro capacity registers items
      have before := (one capacity registers items).bind_right (Program.act capacity registers rest)
      rw [← Program.act_append, ← Program.act_append, List.append_assoc] at before
      exact before.trans (others capacity registers items)

end FoldedPrefix

namespace Program

theorem fold_follows (program : Program) (noDrop : ∀ instr ∈ program, instr.op ≠ .drop) :
    ∃ folded, program.fold = .ok folded ∧
      ∀ registers, Follows (program.evaluate registers) (folded.evaluate registers) := by
  rcases FoldedPrefix.foldlM_follows program [] noDrop with ⟨final, finished, related⟩
  refine ⟨final.reverse, by rw [fold, finished]; rfl, fun registers => ?_⟩
  rw [evaluate_eq, evaluate_eq]
  exact (related Stack.evaluationCapacity registers []).bind_right answer

/-- Folding succeeds for every program without `drop`, and unless the program overflows, the folded program
has the same outcome at every point: the same value, or the same failure. -/
theorem fold_preserves (program : Program) (noDrop : ∀ instr ∈ program, instr.op ≠ .drop) :
    ∃ folded, program.fold = .ok folded ∧
      ∀ registers, program.evaluate registers ≠ .error (.stack .overflow) →
        folded.evaluate registers = program.evaluate registers := by
  rcases program.fold_follows noDrop with ⟨folded, folds, related⟩
  exact ⟨folded, folds, fun registers fits => (related registers).resolve_left fits⟩

theorem fold_preserves_one_plus_two :
    (∀ instr ∈ [Instr.const 1, Instr.const 2, Instr.binary .add], instr.op ≠ .drop) ∧
      evaluate [Instr.const 1, Instr.const 2, Instr.binary .add] #[] ≠ .error (.stack .overflow) ∧
      ∃ folded, fold [Instr.const 1, Instr.const 2, Instr.binary .add] = .ok folded ∧
        folded.evaluate #[] = evaluate [Instr.const 1, Instr.const 2, Instr.binary .add] #[] := by
  have noDrop : ∀ instr ∈ [Instr.const 1, Instr.const 2, Instr.binary .add], instr.op ≠ .drop := by
    simp [Instr.const, Instr.binary]
  have fits :
      evaluate [Instr.const 1, Instr.const 2, Instr.binary .add] #[] ≠ .error (.stack .overflow) := by
    rw [evaluate_eq]
    exact nofun
  rcases fold_preserves _ noDrop with ⟨folded, folds, same⟩
  exact ⟨noDrop, fits, folded, folds, same #[] fits⟩

end Program

end EvoRaster
