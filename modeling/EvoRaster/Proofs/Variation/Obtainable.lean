import EvoRaster.Proofs.Variation.Replacement
import Mathlib.Algebra.Group.Nat.Defs

/-!
Contract: what draws can be made to answer by a choice of the words.

Owns:
- `Obtainable`, a value that some list of words leads to, whatever follows it;
- its rules, and the words for every number below a bound and for every constant;
- `Rule.replace_obtainable`, by which every replacement of a word is drawn;
- `Program.mutate_obtainable`, the same for a mutation.

A draw below a bound is given words that it accepts at its first try. So the number of tries does not matter here.
-/

namespace EvoRaster

/-- Some list of words makes the computation answer the value, and leaves all words that follow. -/
def Obtainable {ε α : Type} (action : ExceptT ε (StateM Source) α) (value : α) : Prop :=
  ∃ words, ∀ rest, action (.listed (words ++ rest)) = (.ok value, .listed rest)

namespace Obtainable

variable {ε ε' α β : Type} {action : ExceptT ε (StateM Source) α} {value : α}

theorem of_pure (value : α) : Obtainable (pure value : ExceptT ε (StateM Source) α) value :=
  ⟨[], fun _ => rfl⟩

theorem bind {next : α → ExceptT ε (StateM Source) β} {result : β} (first : Obtainable action value)
    (second : Obtainable (next value) result) : Obtainable (action >>= next) result := by
  rcases first with ⟨words, first⟩
  rcases second with ⟨more, second⟩
  refine ⟨words ++ more, fun rest => ?_⟩
  rw [List.append_assoc, bind_of_ok (first (more ++ rest)), second rest]

theorem adapt {change : ε → ε'} (obtainable : Obtainable action value) :
    Obtainable (action.adapt change) value := by
  rcases obtainable with ⟨words, answers⟩
  exact ⟨words, fun rest => adapt_of_ok (answers rest)⟩

end Obtainable

/-! ## Draws -/

namespace Draw

private theorem word_obtainable (drawn : UInt32) : Obtainable word drawn := ⟨[drawn], fun _ => rfl⟩

/-- Every number of that many bits can be drawn. -/
private theorem bits_obtainable (count value : Nat) (fits : value < 2 ^ count) : Obtainable (bits count) value := by
  induction count using Nat.strongRecOn generalizing value with
  | ind count inductionHypothesis =>
      by_cases short : count ≤ 32
      · -- The bits are the high ones of a single word.
        have exact32 : 2 ^ count * 2 ^ (32 - count) = 2 ^ 32 := by
          rw [← Nat.pow_add]
          congr 1
          omega
        have small : value * 2 ^ (32 - count) < 2 ^ 32 := by
          rw [← exact32]
          exact Nat.mul_lt_mul_of_pos_right fits (Nat.two_pow_pos _)
        refine ⟨[UInt32.ofNat (value * 2 ^ (32 - count))], fun rest => ?_⟩
        rw [List.singleton_append, bits_of_word rest short, UInt32.toNat_ofNat_of_lt' small,
          Nat.shiftRight_eq_div_pow, Nat.mul_div_cancel _ (Nat.two_pow_pos _)]
      · have split : 2 ^ count = 2 ^ (count - 32) * 0x100000000 := by
          rw [show (0x100000000 : Nat) = 2 ^ 32 from rfl, ← Nat.pow_add]
          congr 1
          omega
        have high : value / 0x100000000 < 2 ^ (count - 32) := by omega
        have low : (UInt32.ofNat (value % 0x100000000)).toNat = value % 0x100000000 :=
          UInt32.toNat_ofNat_of_lt' (Nat.mod_lt _ (by decide))
        unfold bits
        rw [if_neg short]
        refine (word_obtainable (UInt32.ofNat (value % 0x100000000))).bind ?_
        refine (inductionHypothesis (count - 32) (by omega) _ high).bind ?_
        have joined : (UInt32.ofNat (value % 0x100000000)).toNat + value / 0x100000000 * 0x100000000 = value := by
          rw [low]
          omega
        rw [joined]
        exact .of_pure value

/-- Every number below the bound can be drawn. -/
theorem below_obtainable {bound : Nat} (value : Fin bound) : Obtainable (below bound) value := by
  have positive : bound ≠ 0 := Nat.ne_zero_of_lt value.isLt
  have fits : value.val < 2 ^ (bound.log2 + 1) := Nat.lt_trans value.isLt Nat.lt_log2_self
  rcases bits_obtainable (bound.log2 + 1) value fits with ⟨words, drawn⟩
  refine ⟨words, fun rest => ?_⟩
  unfold below
  rw [if_neg positive]
  change belowWithin bound (bound.log2 + 1) ((words ++ rest).length + 1) (.listed (words ++ rest)) = _
  unfold belowWithin
  rw [bind_of_ok (drawn rest), dif_pos value.isLt]
  rfl

private theorem fraction_obtainable (first second : UInt32) : Obtainable fraction (fractionOf first second) :=
  (word_obtainable first).bind ((word_obtainable second).bind (.of_pure _))

end Draw

/-! ## Rules -/

namespace Rule

theorem constant_obtainable {instr : Instr} (drawn : instr.Drawn) : Obtainable constant instr := by
  rcases drawn.eq_constantOf with ⟨first, second, rfl⟩
  exact (Draw.fraction_obtainable first second).bind (.of_pure _)

theorem lift_obtainable {α : Type} {draw : Draw α} {value : α} (obtainable : Obtainable draw value) :
    Obtainable (liftM draw : Variation α) value := obtainable.adapt

theorem var_obtainable {index : Int} (least : 0 ≤ index) :
    Obtainable (liftM (Instr.var index) : Variation Instr) { op := .var, index } := by
  rw [show Instr.var index = .ok { op := .var, index } from if_neg (by omega)]
  exact .of_pure _

private theorem register_obtainable {index registers : Int} (least : 0 ≤ index) (below : index < registers) :
    Obtainable (register registers) { op := .var, index } := by
  refine (lift_obtainable (Draw.below_obtainable ⟨index.toNat, by omega⟩)).bind ?_
  rw [show ((⟨index.toNat, by omega⟩ : Fin registers.toNat).val : Int) = index from Int.toNat_of_nonneg least]
  exact var_obtainable least

/-- Every shape of a replaced value is drawn: each has a number of its own among the eleven. -/
private theorem replaceValue_obtainable {registers : Int} {kept : Instr} {words : List Instr}
    (replaced : ValueReplacement registers kept words) : Obtainable (replaceValue kept registers) words := by
  have chosen (choice : Fin 11) : Obtainable (liftM (Draw.below 11) : Variation (Fin 11)) choice :=
    lift_obtainable (Draw.below_obtainable choice)
  cases replaced with
  | fresh drawn => exact (chosen 0).bind ((lift_obtainable (constant_obtainable drawn)).bind (.of_pure _))
  | register least below => exact (chosen 1).bind ((register_obtainable least below).bind (.of_pure _))
  | constantAfter drawn arithmetic =>
      have constant := lift_obtainable (constant_obtainable drawn)
      rcases arithmetic with rfl | rfl | rfl
      · exact (chosen 2).bind (constant.bind (.of_pure _))
      · exact (chosen 4).bind (constant.bind (.of_pure _))
      · exact (chosen 6).bind (constant.bind (.of_pure _))
  | constantBefore drawn arithmetic =>
      have constant := lift_obtainable (constant_obtainable drawn)
      rcases arithmetic with rfl | rfl | rfl
      · exact (chosen 3).bind (constant.bind (.of_pure _))
      · exact (chosen 5).bind (constant.bind (.of_pure _))
      · exact (chosen 7).bind (constant.bind (.of_pure _))
  | applied operator =>
      cases operator with
      | cos => exact (chosen 8).bind (.of_pure _)
      | sin => exact (chosen 9).bind (.of_pure _)
      | atan => exact (chosen 10).bind (.of_pure _)

private theorem replaceBinary_obtainable {operator : BinaryOp} (arithmetic : operator.Arithmetic) :
    Obtainable replaceBinary [Instr.binary operator] := by
  rcases arithmetic with rfl | rfl | rfl
  · exact (Draw.below_obtainable (0 : Fin 3)).bind (.of_pure _)
  · exact (Draw.below_obtainable (1 : Fin 3)).bind (.of_pure _)
  · exact (Draw.below_obtainable (2 : Fin 3)).bind (.of_pure _)

private theorem replaceUnary_obtainable_unary (operator : UnaryOp) :
    Obtainable replaceUnary [Instr.unary operator] := by
  cases operator with
  | cos => exact (Draw.below_obtainable (0 : Fin 6)).bind (.of_pure _)
  | sin => exact (Draw.below_obtainable (1 : Fin 6)).bind (.of_pure _)
  | atan => exact (Draw.below_obtainable (2 : Fin 6)).bind (.of_pure _)

private theorem replaceUnary_obtainable_combined {constant : Instr} {operator : BinaryOp} (drawn : constant.Drawn)
    (addsOrMultiplies : operator = .add ∨ operator = .mul) :
    Obtainable replaceUnary [constant, Instr.binary operator] := by
  have constant := constant_obtainable drawn
  rcases addsOrMultiplies with rfl | rfl
  · exact (Draw.below_obtainable (3 : Fin 6)).bind (constant.bind (.of_pure _))
  · exact (Draw.below_obtainable (4 : Fin 6)).bind (constant.bind (.of_pure _))

private theorem replaceUnary_obtainable_removed : Obtainable replaceUnary [] :=
  (Draw.below_obtainable (5 : Fin 6)).bind (.of_pure _)

/-- Every replacement of a word is drawn. -/
theorem replace_obtainable {instr : Instr} {registers : Int} {words : List Instr}
    (replaceable : instr.Replaceable) (replaced : Replacement registers instr words) :
    Obtainable (replace instr registers) words := by
  unfold replace
  cases replaced with
  | const isConst replaced =>
      rw [isConst]
      exact replaceValue_obtainable replaced
  | var isVar replaced =>
      rw [isVar]
      exact (var_obtainable (replaceable.register isVar)).bind (replaceValue_obtainable replaced)
  | binary isBinary arithmetic =>
      rw [isBinary]
      exact lift_obtainable (replaceBinary_obtainable arithmetic)
  | unary isUnary new =>
      rw [isUnary]
      exact lift_obtainable (replaceUnary_obtainable_unary new)
  | combined isUnary drawn addsOrMultiplies =>
      rw [isUnary]
      exact lift_obtainable (replaceUnary_obtainable_combined drawn addsOrMultiplies)
  | removed isUnary =>
      rw [isUnary]
      exact lift_obtainable replaceUnary_obtainable_removed
  | dup isDup =>
      rw [isDup]
      exact .of_pure _

end Rule

/-- Every replacement of every word is the outcome of a mutation. -/
theorem Program.mutate_obtainable {program : Program} {registers : Int} {position : Nat} {words : List Instr}
    (positive : 1 ≤ registers) (inside : position < program.length)
    (replaceable : program[position].Replaceable) (replaced : Replacement registers program[position] words) :
    Obtainable (program.mutate registers) (program.splice position words) := by
  have nonempty : program ≠ [] := List.length_pos_iff.mp (Nat.zero_lt_of_lt inside)
  unfold mutate
  rw [if_neg (by simpa using nonempty), if_neg (by omega)]
  refine (Rule.lift_obtainable (Draw.below_obtainable ⟨position, inside⟩)).bind ?_
  exact (Rule.replace_obtainable replaceable replaced).bind (.of_pure _)

end EvoRaster
