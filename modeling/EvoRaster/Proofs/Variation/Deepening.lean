import EvoRaster.Proofs.Variation.Evolved

/-!
Contract: programs that get one cell higher with each mutation.

Owns:
- `deep`, sums that push all of their terms before they add the first two;
- the words that draw such a program, four for each mutation;
- `mutateTimes_deep`, by which these words turn the first program into a deep one.

Each mutation puts a constant and an addition around the value that was pushed last.
-/

namespace EvoRaster

/-! ## Deep programs -/

/-- The constant of two words that are zero. -/
def Instr.lowest : Instr := Rule.constantOf (Draw.fractionOf 0 0)

namespace Program

/-- Pushes `depth` constants and a one, and adds them up from the right. -/
def deep (depth : Nat) : Program :=
  List.replicate depth Instr.lowest ++ Instr.const 1 :: List.replicate depth (Instr.binary .add)

/-- The words that draw the position of the one in `deep depth`, the rule that adds a constant below it, and
that constant. -/
def deepeningWords (depth : Nat) : List UInt32 :=
  [UInt32.ofNat (depth * 2 ^ (31 - (2 * depth + 1).log2)), 0x30000000, 0, 0]

private theorem length_deep (depth : Nat) : (deep depth).length = 2 * depth + 1 := by
  rw [deep, List.length_append, List.length_cons, List.length_replicate, List.length_replicate]
  omega

private theorem position_drawn {depth : Nat} (small : depth < 2 ^ 30) :
    (UInt32.ofNat (depth * 2 ^ (31 - (2 * depth + 1).log2))).toNat >>>
        (32 - ((2 * depth + 1).log2 + 1)) = depth := by
  have upper : 2 * depth + 1 < 2 ^ ((2 * depth + 1).log2 + 1) := Nat.lt_log2_self
  have short : (2 * depth + 1).log2 < 31 := (Nat.log2_lt (by omega)).mpr (by omega)
  have exact32 : 2 ^ ((2 * depth + 1).log2 + 1) * 2 ^ (31 - (2 * depth + 1).log2) = 2 ^ 32 := by
    rw [← Nat.pow_add]
    congr 1
    omega
  have fits : depth * 2 ^ (31 - (2 * depth + 1).log2) < 2 ^ 32 := by
    rw [← exact32]
    exact Nat.mul_lt_mul_of_pos_right (by omega) (Nat.two_pow_pos _)
  rw [UInt32.toNat_ofNat_of_lt' fits, Nat.shiftRight_eq_div_pow,
    show 32 - ((2 * depth + 1).log2 + 1) = 31 - (2 * depth + 1).log2 by omega]
  exact Nat.mul_div_cancel _ (Nat.two_pow_pos _)

private theorem getElem_deep {depth : Nat} (inside : depth < (deep depth).length) :
    (deep depth)[depth] = Instr.const 1 := by
  simp [deep]

private theorem splice_deep (depth : Nat) :
    (deep depth).splice depth [Instr.lowest, Instr.const 1, Instr.binary .add] = deep (depth + 1) := by
  have terms : (deep depth).take depth = List.replicate depth Instr.lowest := by
    rw [deep, List.take_left' List.length_replicate]
  have additions : (deep depth).drop (depth + 1) = List.replicate depth (Instr.binary .add) := by
    rw [deep, List.drop_append, List.length_replicate, List.drop_replicate]
    simp
  rw [splice, terms, additions, deep, List.replicate_succ', List.replicate_succ]
  simp only [List.append_assoc, List.cons_append, List.nil_append]

/-- The second word draws the rule that puts a constant before the old value and adds them. -/
theorem replace_one (registers : Int) (rest : List UInt32) :
    Rule.replace (Instr.const 1) registers (.listed (0x30000000 :: 0 :: 0 :: rest)) =
      (.ok [Instr.lowest, Instr.const 1, Instr.binary .add], .listed rest) := by
  have chosen : (liftM (Draw.below 11) : Variation (Fin 11)) (.listed (0x30000000 :: 0 :: 0 :: rest)) =
      (.ok 3, .listed (0 :: 0 :: rest)) :=
    Rule.lift_of_ok (Draw.below_of_accepted _ (by decide) (by decide) (by decide))
  change (liftM (Draw.below 11) >>= _ : Variation (List Instr)) _ = _
  rw [bind_of_ok chosen]
  rw [Instr.Evolvable.const_const]
  rfl

/-- The words deepen a deep program by one. -/
theorem mutate_deep {depth : Nat} (small : depth < 2 ^ 30) (rest : List UInt32) :
    (deep depth).mutate Config.registers (.listed (deepeningWords depth ++ rest)) =
      (.ok (deep (depth + 1)), .listed rest) := by
  have inside : depth < (deep depth).length := by
    rw [length_deep]
    omega
  have short : (deep depth).length.log2 + 1 ≤ 32 := by
    rw [length_deep]
    have low : (2 * depth + 1).log2 < 31 := (Nat.log2_lt (by omega)).mpr (by omega)
    omega
  have drawn :
      (UInt32.ofNat (depth * 2 ^ (31 - (2 * depth + 1).log2))).toNat >>>
        (32 - ((deep depth).length.log2 + 1)) = depth := by
    rw [length_deep]
    exact position_drawn small
  have chosen := Draw.below_of_accepted (0x30000000 :: 0 :: 0 :: rest) short drawn inside
  have replaced : Rule.replace (deep depth)[depth] Config.registers
      (.listed (0x30000000 :: 0 :: 0 :: rest)) =
        (.ok [Instr.lowest, Instr.const 1, Instr.binary .add], .listed rest) := by
    rw [getElem_deep inside]
    exact replace_one _ rest
  rw [← splice_deep]
  exact mutate_of_drawn (by decide) chosen replaced

theorem mutateTimes_deep (times : Nat) (depth : Nat) (small : depth + times < 2 ^ 30)
    (rest : List UInt32) :
    (deep depth).mutateTimes Config.registers times
        (.listed ((List.range' depth times).flatMap deepeningWords ++ rest)) =
      (.ok (deep (depth + times)), .listed rest) := by
  induction times generalizing depth with
  | zero => rfl
  | succ times inductionHypothesis =>
      rw [mutateTimes, List.range'_succ, List.flatMap_cons, List.append_assoc,
        bind_of_ok (mutate_deep (by omega) _), inductionHypothesis (depth + 1) (by omega)]
      rw [Nat.add_assoc, Nat.add_comm 1 times]

private theorem course_additions (count : Nat) :
    course (List.replicate count (Instr.binary .add)) (count + 1) =
      some { final := 1, peak := count + 1 } := by
  induction count with
  | zero => rfl
  | succ count inductionHypothesis =>
      rw [List.replicate_succ]
      exact course_cons_eq_some_iff.mpr ⟨count + 1, count + 1, rfl, inductionHypothesis, by omega⟩

private theorem course_terms (count height : Nat) :
    course (List.replicate count Instr.lowest ++
        Instr.const 1 :: List.replicate (height + count) (Instr.binary .add)) height =
      some { final := 1, peak := height + count + 1 } := by
  induction count generalizing height with
  | zero =>
      exact course_cons_eq_some_iff.mpr ⟨height + 1, height + 1, rfl, course_additions height, by omega⟩
  | succ count inductionHypothesis =>
      rw [List.replicate_succ, List.cons_append, show height + (count + 1) = height + 1 + count by omega]
      exact course_cons_eq_some_iff.mpr
        ⟨height + 1, height + 1 + count + 1, rfl, inductionHypothesis (height + 1), by omega⟩

/-- A deep program needs a cell for each of its constants. -/
theorem course_deep (depth : Nat) : (deep depth).course 0 = some { final := 1, peak := depth + 1 } := by
  have taken := course_terms depth 0
  rw [Nat.zero_add] at taken
  exact taken

end Program

end EvoRaster
