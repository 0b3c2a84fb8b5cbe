import EvoRaster.Program.Folding
import EvoRaster.Proofs.Outcome.Except

/-!
Contract: what a word does that joins a folded prefix.

Owns:
- `Contracts`, an operator behind its constants and the words that folding puts in their place;
- `FoldedPrefix.takes`, the words that are not kept behind a prefix;
- `FoldedPrefix.extend_cases`: a word is kept, or it completes an operator behind its constants, which contracts.

Everything that is known of folding follows from the contractions.
-/

namespace EvoRaster

/-- An operator behind the constants that it takes, and the constants that it leaves. -/
inductive Contracts : List Instr → List Instr → Prop where
  | binary {left right instr : Instr} {operator : BinaryOp} (isLeft : left.isConst = true)
      (isRight : right.isConst = true) (isOperator : instr.op = .binary operator) :
      Contracts [left, right, instr] [Instr.literal (operator.apply left.constant right.constant)]
  | unary {operand instr : Instr} {operator : UnaryOp} (isOperand : operand.isConst = true)
      (isOperator : instr.op = .unary operator) :
      Contracts [operand, instr] [Instr.literal (operator.apply operand.constant)]
  | dup {operand instr : Instr} (isOperand : operand.isConst = true) (isDup : instr.op = .dup) :
      Contracts [operand, instr] [Instr.literal operand.constant, Instr.literal operand.constant]

namespace FoldedPrefix

/-- The word takes constants from the end of the prefix. -/
def takes (folded : FoldedPrefix) (instr : Instr) : Bool :=
  match instr.op with
  | .binary _ => folded.endsInTwoConstants
  | .unary _ | .dup => folded.endsInConstant
  | .const | .var | .drop => false

theorem takes_const {instr : Instr} (constant : instr.isConst = true) (folded : FoldedPrefix) :
    folded.takes instr = false := by
  rw [Instr.isConst, decide_eq_true_iff] at constant
  simp only [takes, constant]

theorem extend_const {instr : Instr} (constant : instr.isConst = true) (folded : FoldedPrefix) :
    folded.extend instr = .ok (instr :: folded) := by
  rw [Instr.isConst, decide_eq_true_iff] at constant
  simp only [extend, constant]

theorem extend_drop {instr : Instr} (isDrop : instr.op = .drop) (folded : FoldedPrefix) :
    folded.extend instr = .error .dropRefused := by
  simp only [extend, isDrop]

/-- A word that takes nothing is kept. -/
theorem extend_kept {folded : FoldedPrefix} {instr : Instr} (notDrop : instr.op ≠ .drop)
    (kept : folded.takes instr = false) : folded.extend instr = .ok (instr :: folded) := by
  unfold extend
  unfold takes at kept
  cases isOp : instr.op with
  | const | var => rfl
  | drop => exact absurd isOp notDrop
  | binary operator | unary operator | dup =>
      rw [isOp] at kept
      simp [kept]

/-- An operator behind its constants gives way to the words that it leaves. -/
theorem foldlM_redex {redex words : List Instr} (contracts : Contracts redex words) (older : FoldedPrefix) :
    redex.foldlM extend older = .ok (words.reverse ++ older) := by
  cases contracts with
  | binary isLeft isRight isOperator =>
      rw [List.foldlM_cons, extend_const isLeft, ok_bind, List.foldlM_cons, extend_const isRight, ok_bind]
      simp [extend, isOperator, endsInTwoConstants, takeConstant, isLeft, isRight, pure, Except.pure]
  | unary isOperand isOperator =>
      rw [List.foldlM_cons, extend_const isOperand, ok_bind]
      simp [extend, isOperator, endsInConstant, takeConstant, isOperand, pure, Except.pure]
  | dup isOperand isDup =>
      rw [List.foldlM_cons, extend_const isOperand, ok_bind]
      simp [extend, isDup, endsInConstant, takeConstant, isOperand, pure, Except.pure]

/-- A word that takes constants completes an operator behind its constants. -/
theorem redex_of_takes {folded : FoldedPrefix} {instr : Instr} (taken : folded.takes instr = true) :
    ∃ older operands words, folded = List.reverse operands ++ older ∧
      Contracts (operands ++ [instr]) words ∧ ∀ operand ∈ operands, operand.isConst = true := by
  unfold takes at taken
  cases isOp : instr.op with
  | const | var | drop => simp [isOp] at taken
  | binary operator =>
      rw [isOp] at taken
      match folded with
      | [] | [_] => cases taken
      | right :: left :: older =>
          obtain ⟨isRight, isLeft⟩ := Bool.and_eq_true_iff.mp taken
          exact ⟨older, [left, right], _, rfl, .binary isLeft isRight isOp, by simp [isLeft, isRight]⟩
  | unary operator =>
      rw [isOp] at taken
      match folded with
      | [] => cases taken
      | operand :: older =>
          exact ⟨older, [operand], _, rfl, .unary taken isOp, by simpa [endsInConstant] using taken⟩
  | dup =>
      rw [isOp] at taken
      match folded with
      | [] => cases taken
      | operand :: older =>
          exact ⟨older, [operand], _, rfl, .dup taken isOp, by simpa [endsInConstant] using taken⟩

theorem foldlM_constants {words : List Instr} (constants : ∀ word ∈ words, word.isConst = true)
    (older : FoldedPrefix) : words.foldlM extend older = .ok (words.reverse ++ older) := by
  induction words generalizing older with
  | nil => rfl
  | cons word words inductionHypothesis =>
      rw [List.forall_mem_cons] at constants
      rw [List.foldlM_cons, extend_const constants.1, ok_bind, inductionHypothesis constants.2,
        List.reverse_cons, List.append_assoc, List.singleton_append]

/-- A word that takes constants completes an operator behind them, which contracts. -/
theorem extend_taken {folded : FoldedPrefix} {instr : Instr} (taken : folded.takes instr = true) :
    ∃ older operands words, Contracts (operands ++ [instr]) words ∧ (∀ operand ∈ operands, operand.isConst = true) ∧
      folded = List.reverse operands ++ older ∧ folded.extend instr = .ok (words.reverse ++ older) := by
  obtain ⟨older, operands, words, rfl, contracts, constants⟩ := redex_of_takes taken
  have contracted := foldlM_redex contracts older
  rw [List.foldlM_append, foldlM_constants constants, ok_bind] at contracted
  exact ⟨older, operands, words, contracts, constants, rfl, by simpa using contracted⟩

/-- A word is kept, or it completes an operator behind its constants, which contracts. -/
theorem extend_cases (folded : FoldedPrefix) {instr : Instr} (notDrop : instr.op ≠ .drop) :
    ∃ longer, folded.extend instr = .ok longer ∧
      ((folded.takes instr = false ∧ longer = instr :: folded) ∨
        ∃ older operands words, Contracts (operands ++ [instr]) words ∧
          folded = List.reverse operands ++ older ∧ longer = words.reverse ++ older) := by
  cases taken : folded.takes instr with
  | false => exact ⟨_, extend_kept notDrop taken, .inl ⟨rfl, rfl⟩⟩
  | true =>
      obtain ⟨older, operands, words, contracts, -, split, extended⟩ := extend_taken taken
      exact ⟨_, extended, .inr ⟨older, operands, words, contracts, split, rfl⟩⟩

end FoldedPrefix

end EvoRaster
