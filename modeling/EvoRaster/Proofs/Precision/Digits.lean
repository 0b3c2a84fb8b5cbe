import EvoRaster.Proofs.Precision.Rounding

/-!
Contract: rounding digit by digit finds the nearest number.

Owns:
- `Locates`, by which a significand with a round bit and a sticky bit tells where a number lies;
- its laws: each shift halves the number, and rounding the significand finds the nearest integer;
- `Written`, by which a decoded number has the exponent that the format asks for and stands for a real number;
- `roundWithAccuracy_written`, `round_written` and `normalize_written`: whatever digits the operations start
  with, they end with the nearest number.

Numbers that are too large for the exponent field are written as well. They become infinite when they are encoded.
-/

namespace EvoRaster.Numeric

open Float.Model (Format UnpackedFloat totalExponent)
open Float.Model.UnpackedFloat

/-! ## Digits with a residue -/

/-- The number lies where the digits say: the round bit counts one half, and the sticky bit tells whether
there is anything more. -/
inductive Locates (digits : ExtendedMantissa) (x : ℝ) : Prop where
  | intro (rest : ℝ) (notNegative : 0 ≤ rest) (small : rest < 1 / 2)
      (sticky : digits.stickyBit = true ↔ 0 < rest)
      (total : x = digits.mantissa + (if digits.roundBit then 1 / 2 else 0) + rest)

section Locates

variable {digits : ExtendedMantissa} {x : ℝ}

theorem locates_exact (significand : Nat) :
    Locates (.ofMantissaAndAccuracy significand .exact) significand :=
  ⟨0, le_rfl, by norm_num, by simp [ExtendedMantissa.ofMantissaAndAccuracy],
    by simp [ExtendedMantissa.ofMantissaAndAccuracy]⟩

theorem locates_fraction (significand : Nat) {numerator denominator : Nat}
    (proper : numerator < denominator) :
    Locates (.ofMantissaAndAccuracy significand (accuracyOfFraction numerator denominator))
      (significand + numerator / denominator) := by
  have positive : (0 : ℝ) < denominator := by exact_mod_cast Nat.zero_lt_of_lt proper
  have below : (numerator : ℝ) < denominator := by exact_mod_cast proper
  unfold accuracyOfFraction
  by_cases none : numerator = 0
  · rw [if_pos none, none, Nat.cast_zero, zero_div, add_zero]
    exact locates_exact significand
  · have some' : (0 : ℝ) < numerator / denominator := by
      have := Nat.pos_of_ne_zero none
      positivity
    rw [if_neg none]
    cases half : compare (2 * numerator) denominator with
    | lt =>
        have low : (2 * numerator : ℝ) < denominator := by exact_mod_cast compare_lt_iff_lt.mp half
        refine ⟨numerator / denominator, some'.le, ?_, by simp [ExtendedMantissa.ofMantissaAndAccuracy, some'],
          by simp [ExtendedMantissa.ofMantissaAndAccuracy]⟩
        rw [div_lt_iff₀ positive]
        linarith
    | eq =>
        have tie : (2 * numerator : ℝ) = denominator := by exact_mod_cast compare_eq_iff_eq.mp half
        refine ⟨0, le_rfl, by norm_num, by simp [ExtendedMantissa.ofMantissaAndAccuracy], ?_⟩
        simp only [ExtendedMantissa.ofMantissaAndAccuracy, if_true, ← tie, add_zero]
        congr 1
        field_simp
    | gt =>
        have high : (denominator : ℝ) < 2 * numerator := by exact_mod_cast compare_gt_iff_gt.mp half
        have more : (1 / 2 : ℝ) < numerator / denominator := by
          rw [lt_div_iff₀ positive]
          linarith
        have less : (numerator / denominator : ℝ) < 1 := (div_lt_one positive).mpr below
        refine ⟨numerator / denominator - 1 / 2, by linarith, by linarith, ?_, ?_⟩
        · simp only [ExtendedMantissa.ofMantissaAndAccuracy, true_iff]
          linarith
        · simp [ExtendedMantissa.ofMantissaAndAccuracy]

theorem Locates.shiftRightOne (located : Locates digits x) : Locates digits.shiftRightOne (x / 2) := by
  obtain ⟨mantissa, roundBit, stickyBit⟩ := digits
  obtain ⟨rest, notNegative, small, sticky, rfl⟩ := located
  -- What was left before is at most a quarter now, and so is the old round bit.
  refine ⟨(if roundBit then 1 / 4 else 0) + rest / 2, ?_, ?_, ?_, ?_⟩
  · split <;> linarith
  · split <;> linarith
  · cases roundBit
    · simpa [ExtendedMantissa.shiftRightOne] using sticky
    · simp only [ExtendedMantissa.shiftRightOne, Bool.true_or, if_true, true_iff]
      linarith
  · have parts : (mantissa : ℝ) = 2 * (mantissa / 2 : ℕ) + (mantissa % 2 : ℕ) := by
      exact_mod_cast (Nat.div_add_mod mantissa 2).symm
    simp only [ExtendedMantissa.shiftRightOne, parts]
    obtain even | odd := Nat.mod_two_eq_zero_or_one mantissa
    · cases roundBit <;> simp [even] <;> ring
    · cases roundBit <;> simp [odd] <;> ring

theorem Locates.shiftRight (located : Locates digits x) (shift : Nat) :
    Locates (digits >>> shift) (x / 2 ^ shift) := by
  change Locates (shift.repeat ExtendedMantissa.shiftRightOne digits) _
  induction shift with
  | zero => simpa [Nat.repeat] using located
  | succ shift inductionHypothesis =>
      rw [Nat.repeat, pow_succ, ← div_div]
      exact inductionHypothesis.shiftRightOne

theorem Locates.floor_eq (located : Locates digits x) : ⌊x⌋ = digits.mantissa := by
  obtain ⟨rest, notNegative, small, -, rfl⟩ := located
  rw [Int.floor_eq_iff]
  constructor <;> split <;> push_cast <;> linarith

theorem Locates.roundedMantissa_eq (located : Locates digits x) :
    (digits.roundedMantissa : ℤ) = nearestEven x := by
  have floor := located.floor_eq
  obtain ⟨mantissa, roundBit, stickyBit⟩ := digits
  obtain ⟨rest, notNegative, small, sticky, rfl⟩ := located
  have fraction : Int.fract ((mantissa : ℝ) + (if roundBit then 1 / 2 else 0) + rest) =
      (if roundBit then 1 / 2 else 0) + rest := by
    rw [Int.fract, floor, Int.cast_natCast]
    ring
  rw [nearestEven_eq, fraction, floor]
  cases roundBit
  · simp only [Bool.false_eq_true, if_false, zero_add]
    rw [if_pos small]
    cases stickyBit <;> rfl
  · simp only [if_true]
    rw [if_neg (by linarith)]
    cases stickyBit
    · have none : rest = 0 := by
        simp only [Bool.false_eq_true, false_iff, not_lt] at sticky
        linarith
      rw [if_pos (by linarith)]
      rfl
    · have more := sticky.mp rfl
      rw [if_neg (by linarith)]
      rfl

end Locates

/-! ## Written numbers -/

/-- A number with a sign. -/
def signed : Sign → ℝ → ℝ
  | .positive, x => x
  | .negative, x => -x

/-- The number has the exponent that the format asks for, and stands for a real number. -/
inductive Written (format : Format) : ℝ → UnpackedFloat → Prop where
  | zero (sign : Sign) : Written format 0 (.zero sign)
  | finite (sign : Sign) {significand : Nat} {exponent : Int} (positive : 0 < significand)
      (target : exponent = format.targetExponent (totalExponent significand exponent)) :
      Written format (signed sign (magnitude significand exponent))
        (.finite sign significand exponent positive)

@[simp] theorem signed_zero (sign : Sign) : signed sign 0 = 0 := by
  cases sign <;> simp [signed]

theorem rounded_signed (format : Format) (sign : Sign) (x : ℝ) :
    rounded format (signed sign x) = signed sign (rounded format x) := by
  cases sign
  · exact rounded_neg format x
  · rfl

section Round

variable {format : Format} {sign : Sign} {x : ℝ}

/-- The last shift of a rounding drops a digit only if the rounding has carried into a new one. -/
private theorem settle_written {count : Nat} (positive : 0 < x)
    (nearest : (count : ℤ) = nearestEven (x / 2 ^ unitExponent format x)) :
    Written format (signed sign (rounded format x))
      (let settled := shiftToTargetExponent format count (unitExponent format x) .exact
       if nonzero : settled.1.mantissa = 0 then .zero sign
       else .finite sign settled.1.mantissa settled.2 (Nat.pos_of_ne_zero nonzero)) := by
  have digits := mantissaBits_pos format
  have lowest := minExponent_le_unitExponent format x
  have upper : count ≤ 2 ^ format.mantissaBits := by
    have bound := nearestEven_scaled_le format positive
    rw [← nearest] at bound
    exact_mod_cast bound
  have lower : format.minExponent < unitExponent format x → 2 ^ (format.mantissaBits - 1) ≤ count := by
    intro above
    have bound := le_nearestEven_scaled format positive above
    rw [← nearest] at bound
    exact_mod_cast bound
  have size : rounded format x = magnitude count (unitExponent format x) := by
    rw [rounded_eq, ← nearest, magnitude, Int.cast_natCast]
  rw [size]
  generalize unitExponent format x = unit at *
  obtain rfl | nonzero := Nat.eq_zero_or_pos count
  · have amount : (format.targetExponent (totalExponent 0 unit) - unit).toNat = 0 := by
      simp only [Format.targetExponent, totalExponent, Nat.log2_zero]
      omega
    simp only [shiftToTargetExponent, shiftToExponent, amount]
    have nothing : signed sign (magnitude 0 unit) = 0 := by simp [magnitude]
    rw [nothing]
    exact .zero sign
  obtain short | carried := upper.lt_or_eq
  · have target : unit = format.targetExponent (totalExponent count unit) := by
      have few : count.log2 < format.mantissaBits := (Nat.log2_lt nonzero.ne').mpr short
      simp only [Format.targetExponent, totalExponent]
      obtain above | atLowest := lowest.lt_or_eq
      · have full := (Nat.le_log2 nonzero.ne').mpr (lower above)
        omega
      · omega
    have settled := shiftToTargetExponent_exact nonzero target 0
    simp only [pow_zero, mul_one, Int.natCast_zero, Int.sub_zero] at settled
    simp only [settled, nonzero.ne', dite_false]
    exact .finite sign nonzero target
  -- The digits were all ones, and now a one stands in front of as many zeros.
  · have half : 0 < 2 ^ (format.mantissaBits - 1) := Nat.two_pow_pos _
    have target : unit + 1 =
        format.targetExponent (totalExponent (2 ^ (format.mantissaBits - 1)) (unit + 1)) := by
      simp only [Format.targetExponent, totalExponent, Nat.log2_two_pow]
      omega
    have settled := shiftToTargetExponent_exact half target 1
    rw [pow_one, pow_sub_one_mul digits.ne', Nat.cast_one, add_sub_cancel_right, ← carried] at settled
    have same : magnitude count unit = magnitude (2 ^ (format.mantissaBits - 1)) (unit + 1) := by
      rw [magnitude, magnitude, carried, zpow_add₀ two_ne_zero, ← pow_sub_one_mul digits.ne']
      push_cast
      ring
    simp only [settled, half.ne', dite_false]
    rw [same]
    exact .finite sign half target

theorem roundWithAccuracy_written {significand : Nat} {exponent : Int} {accuracy : Accuracy}
    (positive : 0 < x)
    (located : Locates (.ofMantissaAndAccuracy significand accuracy) (x / 2 ^ exponent))
    (target : format.targetExponent (totalExponent significand exponent) = unitExponent format x)
    (fine : exponent ≤ unitExponent format x) :
    Written format (signed sign (rounded format x))
      (roundWithAccuracy format sign significand exponent accuracy) := by
  have amount : (unitExponent format x - exponent).toNat = unitExponent format x - exponent := by omega
  have shifted := located.shiftRight (unitExponent format x - exponent).toNat
  rw [div_div, ← zpow_natCast, ← zpow_add₀ two_ne_zero, amount, add_sub_cancel] at shifted
  have first : shiftToTargetExponent format significand exponent accuracy =
      (ExtendedMantissa.ofMantissaAndAccuracy significand accuracy >>> (unitExponent format x - exponent).toNat,
        unitExponent format x) := by
    simp only [shiftToTargetExponent, shiftToExponent, target, amount, add_sub_cancel]
  unfold roundWithAccuracy
  rw [first]
  exact settle_written positive shifted.roundedMantissa_eq

/-- Numbers with any digits are rounded to the nearest number of the format. -/
theorem round_written {significand : Nat} (positive : 0 < significand) (exponent : Int) :
    Written format (signed sign (rounded format (magnitude significand exponent)))
      (UnpackedFloat.round format sign significand exponent) := by
  simp only [UnpackedFloat.round, decreaseExponent, Nat.shiftLeft_eq]
  generalize amount : (exponent - format.targetExponent (totalExponent significand exponent)).toNat = shift
  have unit := unitExponent_of_digits format positive le_rfl (magnitude_lt_succ significand exponent)
  have longer : magnitude significand exponent / 2 ^ (exponent - shift) =
      ((significand * 2 ^ shift : ℕ) : ℝ) := by
    rw [magnitude, mul_div_assoc, ← zpow_sub₀ two_ne_zero, sub_sub_cancel, zpow_natCast]
    push_cast
    rfl
  apply roundWithAccuracy_written (magnitude_pos positive exponent)
  · rw [longer]
    exact locates_exact _
  · rw [totalExponent_scaled positive, unit]
  · omega

/-- Whole numbers of any unit are rounded to the nearest number of the format. -/
theorem normalize_written (format : Format) (count exponent : Int) (zeroSign : Sign) :
    Written format (rounded format (count * 2 ^ exponent))
      (UnpackedFloat.normalize format count exponent zeroSign) := by
  unfold UnpackedFloat.normalize
  cases order : compare count 0 with
  | lt =>
      have negative := compare_lt_iff_lt.mp order
      have size : (count * 2 ^ exponent : ℝ) = signed .negative (magnitude (-count).toNat exponent) := by
        have absolute : (((-count).toNat : ℤ) : ℝ) = ((-count : ℤ) : ℝ) := by
          rw [Int.toNat_of_nonneg (by omega)]
        rw [signed, magnitude, ← Int.cast_natCast, absolute]
        push_cast
        ring
      rw [size, rounded_signed]
      exact round_written (by omega) exponent
  | eq =>
      rw [compare_eq_iff_eq.mp order, Int.cast_zero, zero_mul, rounded_zero]
      exact .zero zeroSign
  | gt =>
      have positive := compare_gt_iff_gt.mp order
      have size : (count * 2 ^ exponent : ℝ) = signed .positive (magnitude count.toNat exponent) := by
        have absolute : ((count.toNat : ℤ) : ℝ) = (count : ℝ) := by
          rw [Int.toNat_of_nonneg (by omega)]
        rw [signed, magnitude, ← Int.cast_natCast, absolute]
      rw [size, rounded_signed]
      exact round_written (by omega) exponent

end Round

end EvoRaster.Numeric
