import EvoRaster.Proofs.Precision.Digits

/-!
Contract: the operations round their exact results.

Owns:
- `add_written`, `sub_written`, `mul_written` and `div_written`, for numbers in the digits of any format.

Does not own: results that are too large for the format.
-/

namespace EvoRaster.Numeric

open Float.Model (Format UnpackedFloat totalExponent)
open Float.Model.UnpackedFloat

/-! ## Exact results -/

section Operations

variable {format : Format} {x y : ℝ} {left right : UnpackedFloat}

private theorem signed_mul (sign sign' : Sign) (x y : ℝ) :
    signed (sign * sign') (x * y) = signed sign x * signed sign' y := by
  cases sign <;> cases sign'
  · exact (neg_mul_neg x y).symm
  · exact (neg_mul x y).symm
  · exact (mul_neg x y).symm
  · rfl

private theorem signed_div (sign sign' : Sign) (x y : ℝ) :
    signed (sign / sign') (x / y) = signed sign x / signed sign' y := by
  cases sign <;> cases sign'
  · exact (neg_div_neg_eq x y).symm
  · exact (neg_div y x).symm
  · exact (div_neg x).symm
  · rfl

theorem rounded_of_written (written : Written format x left) : rounded format x = x := by
  cases written with
  | zero sign => exact rounded_zero format
  | finite sign positive target => rw [rounded_signed, rounded_of_target format positive target]

theorem magnitude_mul (significand significand' : Nat) (exponent exponent' : Int) :
    magnitude significand exponent * magnitude significand' exponent' =
      magnitude (significand * significand') (exponent + exponent') := by
  rw [magnitude, magnitude, magnitude, zpow_add₀ two_ne_zero]
  push_cast
  ring

/-! ## Addition -/

private theorem apply_shiftLeft (sign : Sign) (significand : Nat) {exponent lower : Int} (below : lower ≤ exponent) :
    (sign.apply (significand <<< (exponent - lower).toNat : ℕ) : ℝ) * 2 ^ lower =
      signed sign (magnitude significand exponent) := by
  have amount : ((exponent - lower).toNat : ℤ) = exponent - lower := by omega
  have size : ((significand <<< (exponent - lower).toNat : ℕ) : ℝ) * 2 ^ lower =
      magnitude significand exponent := by
    rw [magnitude, Nat.shiftLeft_eq, Nat.cast_mul, Nat.cast_pow, Nat.cast_ofNat, ← zpow_natCast, amount,
      mul_assoc, ← zpow_add₀ two_ne_zero, sub_add_cancel]
  cases sign
  · simp only [Sign.apply, signed, Int.cast_neg, Int.cast_natCast, neg_mul, size]
  · simp only [Sign.apply, signed, Int.cast_natCast, size]

theorem add_written (writtenLeft : Written format x left) (writtenRight : Written format y right) :
    Written format (rounded format (x + y)) (UnpackedFloat.add format left right) := by
  cases writtenLeft with
  | zero sign =>
      rw [zero_add, rounded_of_written writtenRight]
      cases writtenRight with
      | zero sign' =>
          simp only [UnpackedFloat.add]
          split <;> exact .zero _
      | finite sign' positive' target' => exact .finite sign' positive' target'
  | @finite sign significand exponent positive target =>
      cases writtenRight with
      | zero sign' =>
          rw [add_zero, rounded_signed, rounded_of_target format positive target]
          exact .finite sign positive target
      | @finite sign' significand' exponent' positive' target' =>
          have sum := normalize_written format
            (sign.apply (significand <<< (exponent - min exponent exponent').toNat : ℕ) +
              sign'.apply (significand' <<< (exponent' - min exponent exponent').toNat : ℕ))
            (min exponent exponent') .positive
          rw [Int.cast_add, add_mul, apply_shiftLeft sign significand (min_le_left _ _),
            apply_shiftLeft sign' significand' (min_le_right _ _)] at sum
          exact sum

/-! ## Subtraction -/

theorem neg_written (written : Written format x left) : Written format (-x) left.neg := by
  cases written with
  | zero sign =>
      rw [neg_zero]
      exact .zero _
  | finite sign positive target =>
      cases sign
      · rw [signed, neg_neg]
        exact .finite .positive positive target
      · exact .finite .negative positive target

private theorem apply_neg (sign : Sign) (count : Int) : (-sign).apply count = -sign.apply count := by
  cases sign
  · exact (neg_neg count).symm
  · rfl

/-- To subtract is to add the number of the other sign. -/
theorem sub_eq_add (format : Format) (left right : UnpackedFloat) :
    UnpackedFloat.sub format left right = UnpackedFloat.add format left right.neg := by
  cases left <;> cases right <;> try rfl
  case finite.finite =>
    simp only [UnpackedFloat.sub, UnpackedFloat.add, UnpackedFloat.neg, apply_neg, Int.sub_eq_add_neg]

theorem sub_written (writtenLeft : Written format x left) (writtenRight : Written format y right) :
    Written format (rounded format (x - y)) (UnpackedFloat.sub format left right) := by
  rw [sub_eq_add, sub_eq_add_neg]
  exact add_written writtenLeft (neg_written writtenRight)

/-! ## Multiplication -/

theorem mul_finite_written {sign sign' : Sign} {significand significand' : Nat} {exponent exponent' : Int}
    (positive : 0 < significand) (positive' : 0 < significand')
    (fine : exponent + exponent' ≤
      format.targetExponent (totalExponent (significand * significand') (exponent + exponent'))) :
    Written format
      (rounded format
        (signed sign (magnitude significand exponent) * signed sign' (magnitude significand' exponent')))
      (UnpackedFloat.mul format (.finite sign significand exponent positive)
        (.finite sign' significand' exponent' positive')) := by
  have product : 0 < significand * significand' := Nat.mul_pos positive positive'
  have unit := unitExponent_of_digits format product le_rfl
    (magnitude_lt_succ (significand * significand') (exponent + exponent'))
  rw [← signed_mul, rounded_signed, magnitude_mul]
  apply roundWithAccuracy_written (magnitude_pos product _)
  · rw [magnitude, mul_div_assoc, div_self (by positivity), mul_one]
    exact locates_exact _
  · exact unit.symm
  · rw [unit]
    exact fine

/-- A product has no fewer digits than the format keeps, unless both factors have the lowest exponent. -/
private theorem product_fine {significand significand' : Nat} {exponent exponent' : Int}
    (positive : 0 < significand) (positive' : 0 < significand')
    (target : exponent = format.targetExponent (totalExponent significand exponent))
    (target' : exponent' = format.targetExponent (totalExponent significand' exponent')) :
    exponent + exponent' ≤
      format.targetExponent (totalExponent (significand * significand') (exponent + exponent')) := by
  have lowest := minExponent_nonpos format
  have digits : significand.log2 + significand'.log2 ≤ (significand * significand').log2 := by
    rw [Nat.le_log2 (Nat.mul_pos positive positive').ne', Nat.pow_add]
    exact Nat.mul_le_mul (Nat.log2_self_le positive.ne') (Nat.log2_self_le positive'.ne')
  simp only [Format.targetExponent, totalExponent] at target target' ⊢
  omega

theorem mul_written (writtenLeft : Written format x left) (writtenRight : Written format y right) :
    Written format (rounded format (x * y)) (UnpackedFloat.mul format left right) := by
  cases writtenLeft with
  | zero sign =>
      rw [zero_mul, rounded_zero]
      cases writtenRight <;> exact .zero _
  | finite sign positive target =>
      cases writtenRight with
      | zero sign' =>
          rw [mul_zero, rounded_zero]
          exact .zero _
      | finite sign' positive' target' =>
          exact mul_finite_written positive positive' (product_fine positive positive' target target')

/-! ## Division -/

section Quotient

variable {significand significand' : Nat} {exponent exponent' : Int}

/-- The quotient as it is computed: whole units of a size that is fine enough, and what is left over. -/
private theorem quotient_eq (significand : Nat) (positive' : 0 < significand') {unit : Int}
    (fine : unit ≤ exponent - exponent') :
    magnitude significand exponent / magnitude significand' exponent' / 2 ^ unit =
      ((significand <<< (exponent - exponent' - unit).toNat / significand' : ℕ) : ℝ) +
        (significand <<< (exponent - exponent' - unit).toNat % significand' : ℕ) / (significand' : ℝ) := by
  have nonzero : (significand' : ℝ) ≠ 0 := by exact_mod_cast positive'.ne'
  have amount : ((exponent - exponent' - unit).toNat : ℤ) = exponent - exponent' - unit := by omega
  have parts := Nat.div_add_mod (significand <<< (exponent - exponent' - unit).toNat) significand'
  rw [add_div' _ _ _ nonzero, mul_comm, ← Nat.cast_mul, ← Nat.cast_add, parts, Nat.shiftLeft_eq,
    Nat.cast_mul, Nat.cast_pow, Nat.cast_ofNat, ← zpow_natCast, amount, magnitude, magnitude,
    zpow_sub₀ two_ne_zero, zpow_sub₀ two_ne_zero]
  field_simp

theorem two_pow_le_magnitude (positive : 0 < significand) (exponent : Int) :
    2 ^ (totalExponent significand exponent - 1) ≤ magnitude significand exponent := by
  have digits : (2 : ℝ) ^ significand.log2 ≤ significand := by
    exact_mod_cast Nat.log2_self_le positive.ne'
  rw [totalExponent, show (significand.log2 + 1 + exponent - 1 : ℤ) = significand.log2 + exponent by ring,
    zpow_add₀ two_ne_zero, zpow_natCast, magnitude]
  gcongr

private theorem magnitude_lt_two_pow (significand : Nat) (exponent : Int) :
    magnitude significand exponent < 2 ^ totalExponent significand exponent := by
  have digits : (significand : ℝ) < 2 ^ (significand.log2 + 1) := by
    exact_mod_cast Nat.lt_log2_self
  rw [totalExponent, zpow_add₀ two_ne_zero, ← Nat.cast_succ, zpow_natCast, magnitude]
  gcongr

private theorem le_log_quotient (positive : 0 < significand) (positive' : 0 < significand') :
    totalExponent significand exponent - totalExponent significand' exponent' - 1 ≤
      Int.log 2 (magnitude significand exponent / magnitude significand' exponent') := by
  have size' := magnitude_pos positive' exponent'
  rw [← Int.zpow_le_iff_le_log (by decide) (div_pos (magnitude_pos positive exponent) size'),
    le_div_iff₀ size', Nat.cast_ofNat]
  calc (2 : ℝ) ^ (totalExponent significand exponent - totalExponent significand' exponent' - 1) *
        magnitude significand' exponent'
    _ ≤ 2 ^ (totalExponent significand exponent - totalExponent significand' exponent' - 1) *
          2 ^ totalExponent significand' exponent' := by
        gcongr
        exact (magnitude_lt_two_pow significand' exponent').le
    _ = 2 ^ (totalExponent significand exponent - 1) := by
        rw [← zpow_add₀ two_ne_zero]
        congr 1
        ring
    _ ≤ magnitude significand exponent := two_pow_le_magnitude positive exponent

private theorem div_finite_written {sign sign' : Sign} (positive : 0 < significand)
    (positive' : 0 < significand') :
    Written format
      (rounded format
        (signed sign (magnitude significand exponent) / signed sign' (magnitude significand' exponent')))
      (UnpackedFloat.div format (.finite sign significand exponent positive)
        (.finite sign' significand' exponent' positive')) := by
  have quotient := div_pos (magnitude_pos positive exponent) (magnitude_pos positive' exponent')
  have digits := mantissaBits_pos format
  have log : _ ≤ Int.log 2 (magnitude significand exponent / magnitude significand' exponent') :=
    le_log_quotient positive positive'
  have unit : unitExponent format (magnitude significand exponent / magnitude significand' exponent') =
      format.targetExponent
        (Int.log 2 (magnitude significand exponent / magnitude significand' exponent') + 1) := by
    rw [unitExponent, abs_of_pos quotient]
  rw [← signed_div, rounded_signed]
  simp only [UnpackedFloat.div, divCore]
  generalize chosen : min (exponent - exponent') (format.targetExponent
    (totalExponent significand exponent - totalExponent significand' exponent')) = start
  have parts := quotient_eq significand positive' (show start ≤ exponent - exponent' by omega)
  have proper := Nat.mod_lt (significand <<< (exponent - exponent' - start).toNat) positive'
  have scale : (0 : ℝ) < 2 ^ start := by positivity
  have whole : (0 : ℝ) < significand' := by exact_mod_cast positive'
  have less :
      ((significand <<< (exponent - exponent' - start).toNat % significand' : ℕ) / significand' : ℝ) < 1 := by
    rw [div_lt_one whole]
    exact_mod_cast proper
  have notNegative :
      0 ≤ ((significand <<< (exponent - exponent' - start).toNat % significand' : ℕ) / significand' : ℝ) := by
    positivity
  generalize magnitude significand exponent / magnitude significand' exponent' = ratio at *
  generalize significand <<< (exponent - exponent' - start).toNat / significand' = count at *
  apply roundWithAccuracy_written quotient
  · rw [parts]
    exact locates_fraction _ proper
  · obtain rfl | counted := Nat.eq_zero_or_pos count
    -- Less than a unit is left only where the units are the smallest ones.
    · have small : ratio < ((2 : ℕ) : ℝ) ^ start := by
        rw [Nat.cast_zero, zero_add] at parts
        rw [← parts, div_lt_one scale] at less
        exact_mod_cast less
      have low := (Int.lt_zpow_iff_log_lt (by decide) quotient).mp small
      rw [unit]
      simp only [Format.targetExponent, totalExponent, Nat.log2_zero] at chosen log ⊢
      omega
    · rw [unitExponent_of_digits format counted]
      · rw [magnitude, ← le_div_iff₀ scale, parts]
        linarith
      · rw [magnitude, ← div_lt_iff₀ scale, parts]
        push_cast
        linarith
  · rw [unit]
    simp only [Format.targetExponent] at chosen ⊢
    omega

end Quotient

theorem div_written (writtenLeft : Written format x left) (writtenRight : Written format y right)
    (nonzero : y ≠ 0) :
    Written format (rounded format (x / y)) (UnpackedFloat.div format left right) := by
  cases writtenRight with
  | zero sign' => exact absurd rfl nonzero
  | finite sign' positive' target' =>
      cases writtenLeft with
      | zero sign =>
          rw [zero_div, rounded_zero]
          exact .zero _
      | finite sign positive target => exact div_finite_written positive positive'

end Operations

end EvoRaster.Numeric
