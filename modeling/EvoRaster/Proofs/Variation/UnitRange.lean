import EvoRaster.Proofs.Precision.Single
import EvoRaster.Proofs.Variation.Draws

/-!
Contract: where drawn constants lie.

Owns:
- `Rule.constantOf_represents`, by which a constant is the nearest single-precision number to twice its fraction less
  one, since doubles compute that exactly;
- `Instr.UnitConstant`, a constant between minus one and one that is below one for most draws;
- `Instr.InUnitRange`, of a constant that is made of the last two words taken;
- `Rule.FreshInRange`, by which the fresh words of a rule are told from the word that it keeps;
- `Rule.constants_in_unit_range`, for the constants of every rule.

The largest fractions are less than half a unit of single precision away from one, or as far from it as from its
neighbor, which is odd. Their constant is one.
-/

namespace EvoRaster

open Numeric
open Float.Model (Format)

/-! ## Exact fractions -/

namespace Draw

/-- The bits of a fraction as a whole number. -/
def fractionBits (first second : UInt32) : Nat := (first >>> 5).toNat * 2 ^ 26 + (second >>> 6).toNat

theorem fractionBits_eq (first second : UInt32) :
    fractionBits first second = first.toNat / 2 ^ 5 * 2 ^ 26 + second.toNat / 2 ^ 6 := by
  simp [fractionBits, UInt32.toNat_shiftRight, Nat.shiftRight_eq_div_pow]

theorem fractionBits_lt (first second : UInt32) : fractionBits first second < 2 ^ 53 := by
  have below := first.toNat_lt
  have below' := second.toNat_lt
  rw [fractionBits_eq]
  omega

/-- Twice a fraction is computed exactly. -/
private theorem fractionOf_represents (first second : UInt32) :
    Represents (fractionOf first second * 2) (fractionBits first second / 2 ^ 52) := by
  have below := fractionBits_lt first second
  have scale : Represents 9007199254740992 (2 ^ 53) :=
    represents_of_read
      (show (9007199254740992 : Float).toModel.unpack = .finite .positive (2 ^ 52) 1 (by decide) from rfl)
      (by norm_num [signed, magnitude])
  have quotient := (represents_natCast below).div_exact scale (by positivity)
    (Short.of_units (show _ = _ * (2 : ℝ) ^ (-53 : ℤ) by norm_num; ring) below (by decide) (by decide))
  have doubled := quotient.mul_exact Double.represents_two
    (Short.of_units (show _ = _ * (2 : ℝ) ^ (-52 : ℤ) by norm_num; ring) below (by decide) (by decide))
  rwa [show (fractionBits first second / 2 ^ 53 * 2 : ℝ) = fractionBits first second / 2 ^ 52 by ring] at doubled

end Draw

/-! ## Constants -/

namespace Rule

/-- The number that a constant is meant to be: twice the fraction, less one. -/
noncomputable def centered (first second : UInt32) : ℝ := magnitude (Draw.fractionBits first second) (-52) - 1

theorem centered_eq (first second : UInt32) :
    centered first second = Draw.fractionBits first second / 2 ^ 52 - 1 := by
  rw [centered, magnitude, zpow_neg, div_eq_mul_inv]
  rfl

private theorem abs_centered_le (first second : UInt32) : |centered first second| ≤ 1 := by
  have below : (Draw.fractionBits first second : ℝ) ≤ 2 ^ 53 := by
    exact_mod_cast (Draw.fractionBits_lt first second).le
  have quotient : (Draw.fractionBits first second : ℝ) / 2 ^ 52 ≤ 2 := by
    rw [div_le_iff₀ (by positivity)]
    linarith
  have notNegative : (0 : ℝ) ≤ Draw.fractionBits first second / 2 ^ 52 := by positivity
  rw [centered_eq, abs_le]
  constructor <;> linarith

theorem abs_rounded_centered_le (first second : UInt32) : |rounded .binary32 (centered first second)| ≤ 1 := by
  obtain ⟨least, most⟩ := abs_le.mp (abs_centered_le first second)
  have lower := le_rounded .binary32 (show |(-1 : ℤ)| < 2 ^ 24 by decide) (by exact_mod_cast least)
  have upper := rounded_le .binary32 (show |(1 : ℤ)| < 2 ^ 24 by decide) (by exact_mod_cast most)
  rw [abs_le]
  exact ⟨by exact_mod_cast lower, by exact_mod_cast upper⟩

theorem constantOf_represents (first second : UInt32) :
    Represents (constantOf (Draw.fractionOf first second)).value (rounded .binary32 (centered first second)) := by
  have below := Draw.fractionBits_lt first second
  have digits : |(Draw.fractionBits first second - 2 ^ 52 : ℤ)| < 2 ^ 53 := by
    rw [abs_lt]
    omega
  have subtracted := (Draw.fractionOf_represents first second).sub_exact Double.represents_one
    ⟨Draw.fractionBits first second - 2 ^ 52, -52, by norm_num; ring, digits, by decide, by decide⟩
  rw [← centered_eq] at subtracted
  exact throughSingle_represents subtracted
    ((abs_rounded_centered_le first second).trans (one_le_pow₀ one_le_two))

end Rule

/-- The first word from which on a constant is one. -/
def Rule.unitLimit : UInt32 := 0xFFFFFFC0

/-- A constant of two words. It lies between minus one and one, and one itself is left out unless the first word reaches
the limit. -/
structure Instr.UnitConstant (instr : Instr) (first second : UInt32) : Prop where
  stored : instr = Rule.constantOf (Draw.fractionOf first second)
  nearest : Represents instr.value (rounded .binary32 (Rule.centered first second))
  least : -1 ≤ instr.value
  most : instr.value ≤ 1
  halfOpen_iff : -1 ≤ instr.value ∧ instr.value < 1 ↔ first < Rule.unitLimit

theorem Instr.unitConstant (first second : UInt32) :
    (Rule.constantOf (Draw.fractionOf first second)).UnitConstant first second := by
  have stands := Rule.constantOf_represents first second
  obtain ⟨least, most⟩ := abs_le.mp (Rule.abs_rounded_centered_le first second)
  have fromBelow := (Double.represents_neg_one.le_iff stands).mpr least
  refine ⟨rfl, stands, fromBelow, (stands.le_iff Double.represents_one).mpr most, ?_⟩
  -- Half a unit of single precision is two to the 27 in the bits of the fraction.
  have counted : Rule.centered first second < 1 - 1 / 2 ^ 25 ↔
      Draw.fractionBits first second < 2 ^ 53 - 2 ^ 27 := by
    have split : (1 - 1 / 2 ^ 25 : ℝ) = ((2 ^ 53 - 2 ^ 27 : ℕ) : ℝ) / 2 ^ 52 - 1 := by norm_num
    rw [Rule.centered_eq, split, sub_lt_sub_iff_right, div_lt_div_iff_of_pos_right (by positivity), Nat.cast_lt]
  rw [and_iff_right fromBelow, stands.lt_iff Double.represents_one, rounded_lt_one_iff, counted,
    Draw.fractionBits_eq, UInt32.lt_iff_toNat_lt]
  have limit : Rule.unitLimit.toNat = 2 ^ 32 - 2 ^ 6 := rfl
  have below := second.toNat_lt
  omega

/-! ## Fresh constants of the rules -/

/-- A constant of the last two words that were taken between the sources, or a word of another opcode. -/
def Instr.InUnitRange (source after : Source) (instr : Instr) : Prop :=
  instr.isConst = true →
    ∃ taken first second, source.Takes (taken ++ [first, second]) after ∧ instr.UnitConstant first second

section Ranges

variable {source between after : Source}

theorem Instr.inUnitRange_of_op {instr : Instr} (notConst : instr.op ≠ .const) :
    instr.InUnitRange source after := by
  intro isConst
  exact absurd (of_decide_eq_true isConst) notConst

@[simp]
theorem Instr.inUnitRange_unary (operator : UnaryOp) : (Instr.unary operator).InUnitRange source after :=
  inUnitRange_of_op nofun

@[simp]
theorem Instr.inUnitRange_binary (operator : BinaryOp) : (Instr.binary operator).InUnitRange source after :=
  inUnitRange_of_op nofun

namespace Rule

theorem constant_unitConstant (source : Source) :
    Ensures constant source
      (fun instr after => ∃ first second, source.Takes [first, second] after ∧ instr.UnitConstant first second)
      fun _ _ => True := by
  refine (constant_takes source).mono ?_ fun _ _ _ => trivial
  rintro instr after ⟨first, second, taken, rfl⟩
  exact ⟨first, second, taken, Instr.unitConstant first second⟩

/-- A constant that is drawn last, after some words were taken. -/
theorem constant_inUnitRange {taken : List UInt32} (before : source.Takes taken between) :
    Ensures constant between (fun instr after => instr.InUnitRange source after) fun _ _ => True := by
  refine (constant_unitConstant between).mono ?_ fun _ _ _ => trivial
  rintro instr after ⟨first, second, last, unit⟩
  exact fun _ => ⟨taken, first, second, before.append last, unit⟩

/-- The words that a rule draws are in range. They stand alone, or around the word that the rule keeps. -/
inductive FreshInRange (kept : Instr) (source after : Source) : List Instr → Prop where
  | alone {fresh : Instr} (inRange : fresh.InUnitRange source after) : FreshInRange kept source after [fresh]
  | around (left right : List Instr) (some : left ++ right ≠ [])
      (inRange : ∀ instr ∈ left ++ right, instr.InUnitRange source after) :
      FreshInRange kept source after (left ++ kept :: right)

private theorem register_ensures (registers : Int) :
    Ensures (register registers) source (fun instr _ => instr.op = .var) fun _ _ => True := by
  refine Ensures.bind (Ensures.intro (fun index state _ => ?_) fun _ _ _ => trivial)
  exact Ensures.of_outcome rfl rfl

variable {kept instr : Instr}

private theorem freshInRange_after (operator : BinaryOp) (inRange : instr.InUnitRange source after) :
    FreshInRange kept source after [kept, instr, Instr.binary operator] :=
  .around [] [instr, Instr.binary operator] (by simp) (by simpa using inRange)

private theorem freshInRange_before (operator : BinaryOp) (inRange : instr.InUnitRange source after) :
    FreshInRange kept source after [instr, kept, Instr.binary operator] :=
  .around [instr] [Instr.binary operator] (by simp) (by simpa using inRange)

private theorem freshInRange_applied (operator : UnaryOp) :
    FreshInRange kept source after [kept, Instr.unary operator] :=
  .around [] [Instr.unary operator] (by simp) (by simp)

theorem replaceValue_ensures (kept : Instr) (registers : Int) (source : Source) :
    Ensures (replaceValue kept registers) source (fun words after => FreshInRange kept source after words)
      fun _ _ => True := by
  apply ((Draw.below_advances 11).adapt source).bind_of
  rintro choice between ⟨taken, before⟩
  have drawn : Ensures (liftM constant : Variation Instr) between
      (fun instr after => instr.InUnitRange source after) fun _ _ => True :=
    Ensures.adapt (constant_inUnitRange before)
  match choice with
  | 0 => exact drawn.bind_of fun _ _ inRange => Ensures.of_pure (.alone inRange)
  | 1 =>
      refine (register_ensures registers).bind_of fun _ _ isVar => Ensures.of_pure (.alone ?_)
      exact Instr.inUnitRange_of_op (by rw [isVar]; nofun)
  | 2 | 4 | 6 => exact drawn.bind_of fun _ _ inRange => Ensures.of_pure (freshInRange_after _ inRange)
  | 3 | 5 | 7 => exact drawn.bind_of fun _ _ inRange => Ensures.of_pure (freshInRange_before _ inRange)
  | 8 | 9 | 10 => exact Ensures.of_pure (freshInRange_applied _)

theorem replaceUnary_ensures (source : Source) :
    Ensures replaceUnary source (fun words after => ∀ instr ∈ words, instr.InUnitRange source after)
      fun _ _ => True := by
  apply (Draw.below_advances 6 source).bind_of
  rintro choice between ⟨taken, before⟩
  match choice with
  | 0 | 1 | 2 => exact Ensures.of_pure (by simp)
  | 3 | 4 =>
      exact (constant_inUnitRange before).bind_of fun _ _ inRange => Ensures.of_pure (by simpa using inRange)
  | 5 => exact Ensures.of_pure (by simp)

end Rule

end Ranges

/-- A constant is drawn from two words. It lies between minus one and one, and it is below one if and only if the
first word is below the limit. A fresh constant of a rule for values or for unary operators is such a constant, and its
words are the last ones that the rule takes. -/
theorem Rule.constants_in_unit_range (kept : Instr) (registers : Int) (source after : Source)
    (first second : UInt32) (rest : List UInt32) :
    (∃ instr : Instr, constant (.listed (first :: second :: rest)) = (.ok instr, .listed rest) ∧
        instr.UnitConstant first second) ∧
      (∀ instr, constant source = (.ok instr, after) →
        ∃ first second, source.Takes [first, second] after ∧ instr.UnitConstant first second) ∧
      (∀ words, replaceValue kept registers source = (.ok words, after) →
        FreshInRange kept source after words) ∧
      ∀ words, replaceUnary source = (.ok words, after) → ∀ instr ∈ words, instr.InUnitRange source after := by
  refine ⟨⟨_, rfl, Instr.unitConstant first second⟩, ?_, ?_, ?_⟩
  · exact fun instr ended => (constant_unitConstant source).of_ok ended
  · exact fun words ended => (replaceValue_ensures kept registers source).of_ok ended
  · exact fun words ended => (replaceUnary_ensures source).of_ok ended

/-- The last first word of a constant below one, and the first one of the constant one, alone and after the words that
choose a rule. -/
theorem Rule.constants_in_unit_range_at_limit :
    ∃ low high : Instr, constant (.listed [0xFFFFFFBF, 0xFFFFFFFF]) = (.ok low, .listed []) ∧
      (-1 ≤ low.value ∧ low.value < 1) ∧
      constant (.listed [0xFFFFFFC0, 0]) = (.ok high, .listed []) ∧ high.value ≤ 1 ∧
      ¬(-1 ≤ high.value ∧ high.value < 1) ∧
      (∃ words, replaceValue low 2 (.listed [0x20000000, 0xFFFFFFC0, 0]) = (.ok words, .listed []) ∧
        FreshInRange low (.listed [0x20000000, 0xFFFFFFC0, 0]) (.listed []) words) ∧
      ∃ words, replaceUnary (.listed [0x60000000, 0xFFFFFFC0, 0]) = (.ok words, .listed []) ∧
        ∀ instr ∈ words, instr.InUnitRange (.listed [0x60000000, 0xFFFFFFC0, 0]) (.listed []) := by
  obtain ⟨⟨low, lowDrawn, lowUnit⟩, -⟩ :=
    Rule.constants_in_unit_range (Instr.unary .cos) 2 (.listed []) (.listed []) 0xFFFFFFBF 0xFFFFFFFF []
  obtain ⟨⟨high, highDrawn, highUnit⟩, -, values, -⟩ :=
    Rule.constants_in_unit_range low 2 (.listed [0x20000000, 0xFFFFFFC0, 0]) (.listed []) 0xFFFFFFC0 0 []
  obtain ⟨-, -, -, unary⟩ :=
    Rule.constants_in_unit_range low 2 (.listed [0x60000000, 0xFFFFFFC0, 0]) (.listed []) 0xFFFFFFC0 0 []
  have value : replaceValue low 2 (.listed [0x20000000, 0xFFFFFFC0, 0]) =
      (.ok [low, high, Instr.binary .add], .listed []) := by
    have chosen : Draw.below 11 (.listed [0x20000000, 0xFFFFFFC0, 0]) = (.ok 2, .listed [0xFFFFFFC0, 0]) :=
      Draw.below_of_accepted _ (by decide) rfl (by decide)
    exact (bind_of_ok (adapt_of_ok chosen)).trans (bind_of_ok (adapt_of_ok highDrawn))
  have operator : replaceUnary (.listed [0x60000000, 0xFFFFFFC0, 0]) =
      (.ok [high, Instr.binary .add], .listed []) := by
    have chosen : Draw.below 6 (.listed [0x60000000, 0xFFFFFFC0, 0]) = (.ok 3, .listed [0xFFFFFFC0, 0]) :=
      Draw.below_of_accepted _ (by decide) rfl (by decide)
    exact (bind_of_ok chosen).trans (bind_of_ok highDrawn)
  exact ⟨low, high, lowDrawn, lowUnit.halfOpen_iff.mpr (by decide), highDrawn, highUnit.most,
    fun inside => absurd (highUnit.halfOpen_iff.mp inside) (by decide), ⟨_, value, values _ value⟩, _, operator,
    unary _ operator⟩

/-- The largest fraction gives the constant one, which is not below one. -/
theorem Rule.constant_reaches_one :
    ∃ instr : Instr, constant (.listed [0xFFFFFFFF, 0xFFFFFFFF]) = (.ok instr, .listed []) ∧
      instr.value = 1 ∧ ¬(-1 ≤ instr.value ∧ instr.value < 1) :=
  ⟨constantOf (Draw.fractionOf 0xFFFFFFFF 0xFFFFFFFF), rfl, by decide +kernel, by decide +kernel⟩

end EvoRaster
