import EvoRaster.Proofs.Precision.Order
import EvoRaster.Proofs.Precision.Widening

/-!
Contract: the nearest number of a format.

Owns:
- `nearestEven`, the nearest integer, ties to the even one, which keeps order and commutes with the sign;
- `rounded`, the nearest number of a format that has exponents of any size above its lowest;
- `rounded_mono`, `rounded_neg`, `rounded_of_target` and `rounded_of_short`: rounding keeps order and sign, and
  numbers that need no rounding;
- `rounded_add_tiny`, by which a power of two absorbs what is much smaller.

Does not own: what the operations of the format do with digits. They are shown to round in this way.
-/

namespace EvoRaster.Numeric

open Float.Model (Format UnpackedFloat totalExponent)

/-! ## The nearest integer -/

/-- The nearest integer, and the even one of two that are equally near. -/
noncomputable def nearestEven (x : ℝ) : ℤ :=
  if Int.fract x < 1 - Int.fract x then ⌊x⌋
  else if Int.fract x = 1 - Int.fract x then ⌊x⌋ + ⌊x⌋ % 2
  else ⌊x⌋ + 1

section NearestEven

variable {x y : ℝ}

theorem nearestEven_eq (x : ℝ) :
    nearestEven x =
      if Int.fract x < 1 / 2 then ⌊x⌋ else if Int.fract x = 1 / 2 then ⌊x⌋ + ⌊x⌋ % 2 else ⌊x⌋ + 1 := by
  have less : Int.fract x < 1 - Int.fract x ↔ Int.fract x < 1 / 2 := by constructor <;> intro <;> linarith
  have tie : Int.fract x = 1 - Int.fract x ↔ Int.fract x = 1 / 2 := by constructor <;> intro <;> linarith
  simp only [nearestEven, less, tie]

theorem floor_le_nearestEven (x : ℝ) : ⌊x⌋ ≤ nearestEven x := by
  unfold nearestEven
  split_ifs <;> omega

private theorem nearestEven_le_floor_add_one (x : ℝ) : nearestEven x ≤ ⌊x⌋ + 1 := by
  unfold nearestEven
  split_ifs <;> omega

private theorem nearestEven_of_low (low : Int.fract x < 1 / 2) : nearestEven x = ⌊x⌋ := by
  rw [nearestEven_eq, if_pos low]

/-- A number at most one half away from an integer is rounded to it, and from exactly one half away only to an even
one. -/
theorem nearestEven_of_near {count : ℤ} (lower : count - 1 / 2 ≤ x) (upper : x ≤ count + 1 / 2)
    (ties : count % 2 = 0 ∨ count - 1 / 2 < x ∧ x < count + 1 / 2) : nearestEven x = count := by
  rcases lt_or_ge x count with below | above
  · have floor : ⌊x⌋ = count - 1 := by
      rw [Int.floor_eq_iff]
      push_cast
      constructor <;> linarith
    have fraction : Int.fract x = x - count + 1 := by
      rw [Int.fract, floor]
      push_cast
      ring
    rw [nearestEven_eq, fraction, floor, if_neg (by linarith)]
    split_ifs with tie
    · obtain even | ⟨notTie, -⟩ := ties
      · omega
      · linarith
    · omega
  · have floor : ⌊x⌋ = count := by
      rw [Int.floor_eq_iff]
      constructor <;> linarith
    have fraction : Int.fract x = x - count := by rw [Int.fract, floor]
    rw [nearestEven_eq, fraction, floor]
    split_ifs with low tie
    · rfl
    · obtain even | ⟨-, notTie⟩ := ties
      · omega
      · linarith
    · exact absurd (le_antisymm (by linarith) (by linarith)) tie

theorem nearestEven_intCast (count : ℤ) : nearestEven count = count := by
  simp [nearestEven]

theorem nearestEven_mono : Monotone nearestEven := by
  intro x y atMost
  have floors : ⌊x⌋ ≤ ⌊y⌋ := Int.floor_le_floor atMost
  by_cases same : ⌊x⌋ = ⌊y⌋
  · have fractions : Int.fract x ≤ Int.fract y := by
      rw [Int.fract, Int.fract, same]
      linarith
    unfold nearestEven
    rw [same]
    split_ifs <;> grind
  · calc nearestEven x ≤ ⌊x⌋ + 1 := nearestEven_le_floor_add_one x
      _ ≤ ⌊y⌋ := by omega
      _ ≤ nearestEven y := floor_le_nearestEven y

/-- What is further than one half below an integer is not rounded up to it. -/
theorem nearestEven_lt {count : ℤ} (below : x < count - 1 / 2) : nearestEven x < count := by
  have near : nearestEven (max x (count - 1 : ℤ)) = count - 1 := by
    apply nearestEven_of_near
    · push_cast
      linarith [le_max_right x (count - 1 : ℝ)]
    · push_cast
      exact max_le (by linarith) (by linarith)
    · push_cast
      exact .inr ⟨by linarith [le_max_right x (count - 1 : ℝ)], max_lt (by linarith) (by linarith)⟩
  have atMost := nearestEven_mono (le_max_left x (count - 1 : ℤ))
  omega

theorem nearestEven_neg (x : ℝ) : nearestEven (-x) = -nearestEven x := by
  by_cases whole : Int.fract x = 0
  · obtain ⟨count, rfl⟩ := Int.fract_eq_zero_iff.mp whole
    rw [← Int.cast_neg, nearestEven_intCast, nearestEven_intCast]
  · have fraction := Int.fract_neg whole
    have lower : ⌊-x⌋ = -⌊x⌋ - 1 := by
      have parts := Int.floor_add_fract (-x)
      have parts' := Int.floor_add_fract x
      rify
      linarith
    unfold nearestEven
    rw [fraction, lower]
    split_ifs <;> grind

theorem nearestEven_nonneg (notNegative : 0 ≤ x) : 0 ≤ nearestEven x :=
  (Int.floor_nonneg.mpr notNegative).trans (floor_le_nearestEven x)

end NearestEven

/-! ## The nearest number of a format -/

/-- The exponent of the last digit that the format keeps of a number. -/
noncomputable def unitExponent (format : Format) (x : ℝ) : ℤ := format.targetExponent (Int.log 2 |x| + 1)

/-- The nearest number of the format, if the format had exponents of any size above its lowest. -/
noncomputable def rounded (format : Format) (x : ℝ) : ℝ :=
  nearestEven (x / magnitude 1 (unitExponent format x)) * magnitude 1 (unitExponent format x)

theorem rounded_eq (format : Format) (x : ℝ) :
    rounded format x = nearestEven (x / 2 ^ unitExponent format x) * 2 ^ unitExponent format x := by
  rw [rounded, magnitude, Nat.cast_one, one_mul]

theorem mantissaBits_pos (format : Format) : 0 < format.mantissaBits := by simp [Format.mantissaBits]

section Rounded

variable (format : Format) {x y : ℝ}

theorem rounded_zero : rounded format 0 = 0 := by
  have none := nearestEven_intCast 0
  rw [Int.cast_zero] at none
  simp [rounded_eq, none]

theorem rounded_neg (x : ℝ) : rounded format (-x) = -rounded format x := by
  have unit : unitExponent format (-x) = unitExponent format x := by rw [unitExponent, abs_neg, unitExponent]
  rw [rounded_eq, unit, neg_div, nearestEven_neg, rounded_eq, Int.cast_neg, neg_mul]

theorem rounded_nonneg (notNegative : 0 ≤ x) : 0 ≤ rounded format x := by
  have count := nearestEven_nonneg (x := x / 2 ^ unitExponent format x) (by positivity)
  rw [rounded_eq]
  positivity

/-! ### Order -/

theorem minExponent_le_unitExponent (x : ℝ) :
    format.minExponent ≤ unitExponent format x := le_max_right _ _

theorem unitExponent_mono (positive : 0 < x) (atMost : x ≤ y) :
    unitExponent format x ≤ unitExponent format y := by
  have logs := Int.log_mono_right (b := 2) positive atMost
  simp only [unitExponent, Format.targetExponent, abs_of_pos positive, abs_of_pos (positive.trans_le atMost)]
  omega

/-- The format keeps enough digits in front of the last one. -/
private theorem scaled_lt (positive : 0 < x) : x / 2 ^ unitExponent format x < 2 ^ format.mantissaBits := by
  have upper := Int.lt_zpow_succ_log_self (b := 2) (by decide) x
  rw [Nat.cast_ofNat] at upper
  rw [div_lt_iff₀ (by positivity), ← zpow_natCast, ← zpow_add₀ two_ne_zero]
  apply upper.trans_le
  apply zpow_le_zpow_right₀ one_le_two
  simp only [unitExponent, Format.targetExponent, abs_of_pos positive]
  omega

/-- Numbers that do not have the lowest exponent fill all digits. -/
private theorem le_scaled (positive : 0 < x) (above : format.minExponent < unitExponent format x) :
    2 ^ (format.mantissaBits - 1) ≤ x / 2 ^ unitExponent format x := by
  have lower := Int.zpow_log_le_self (b := 2) (by decide) positive
  have digits := mantissaBits_pos format
  rw [Nat.cast_ofNat] at lower
  rw [le_div_iff₀ (by positivity), ← zpow_natCast, ← zpow_add₀ two_ne_zero]
  apply le_trans _ lower
  apply zpow_le_zpow_right₀ one_le_two
  simp only [unitExponent, Format.targetExponent, abs_of_pos positive] at above ⊢
  omega

theorem nearestEven_scaled_le (positive : 0 < x) :
    nearestEven (x / 2 ^ unitExponent format x) ≤ 2 ^ format.mantissaBits := by
  rw [← nearestEven_intCast (2 ^ format.mantissaBits)]
  apply nearestEven_mono
  push_cast
  exact (scaled_lt format positive).le

theorem le_nearestEven_scaled (positive : 0 < x) (above : format.minExponent < unitExponent format x) :
    2 ^ (format.mantissaBits - 1) ≤ nearestEven (x / 2 ^ unitExponent format x) := by
  rw [← nearestEven_intCast (2 ^ (format.mantissaBits - 1))]
  apply nearestEven_mono
  push_cast
  exact le_scaled format positive above

private theorem rounded_mono_of_pos (positive : 0 < x) (atMost : x ≤ y) : rounded format x ≤ rounded format y := by
  rcases (unitExponent_mono format positive atMost).eq_or_lt with same | coarser
  · rw [rounded_eq, rounded_eq, same]
    gcongr
    apply nearestEven_mono
    gcongr
  -- The larger number has larger units, so the largest count of the smaller units comes below it.
  · have upper : (nearestEven (x / 2 ^ unitExponent format x) : ℝ) ≤ 2 ^ format.mantissaBits := by
      exact_mod_cast nearestEven_scaled_le format positive
    have lower : (2 : ℝ) ^ (format.mantissaBits - 1) ≤ nearestEven (y / 2 ^ unitExponent format y) := by
      have above := (minExponent_le_unitExponent format x).trans_lt coarser
      exact_mod_cast le_nearestEven_scaled format (positive.trans_le atMost) above
    calc rounded format x ≤ 2 ^ format.mantissaBits * 2 ^ unitExponent format x := by
          rw [rounded_eq]
          gcongr
      _ = 2 ^ (format.mantissaBits - 1) * 2 ^ (unitExponent format x + 1) := by
          rw [zpow_add₀ two_ne_zero, ← pow_sub_one_mul (mantissaBits_pos format).ne']
          ring
      _ ≤ 2 ^ (format.mantissaBits - 1) * 2 ^ unitExponent format y := by
          gcongr
          · exact one_le_two
          · omega
      _ ≤ rounded format y := by
          rw [rounded_eq]
          gcongr

/-- Rounding keeps the order of numbers. -/
theorem rounded_mono : Monotone (rounded format) := by
  intro x y atMost
  rcases lt_trichotomy 0 x with positive | rfl | negative
  · exact rounded_mono_of_pos format positive atMost
  · rw [rounded_zero]
    exact rounded_nonneg format atMost
  · rcases le_or_gt 0 y with notNegative | negative'
    · have below := rounded_nonneg format (neg_nonneg.mpr negative.le)
      rw [rounded_neg] at below
      linarith [rounded_nonneg format notNegative]
    · have mirrored := rounded_mono_of_pos format (neg_pos.mpr negative') (neg_le_neg atMost)
      rw [rounded_neg, rounded_neg] at mirrored
      linarith

/-! ### Numbers that need no rounding -/

/-- The digits of a number in front of any place tell where its first digit is. -/
private theorem log_of_digits {significand : Nat} {exponent : Int} (positive : 0 < significand)
    (lower : magnitude significand exponent ≤ x) (upper : x < magnitude (significand + 1) exponent) :
    Int.log 2 x = significand.log2 + exponent := by
  have positive' : 0 < x := (magnitude_pos positive exponent).trans_le lower
  have scale : (0 : ℝ) < 2 ^ exponent := by positivity
  apply le_antisymm
  · have digits : ((significand + 1 : Nat) : ℝ) ≤ 2 ^ (significand.log2 + 1) := by
      exact_mod_cast Nat.lt_log2_self (n := significand)
    rw [← Int.lt_add_one_iff, ← Int.lt_zpow_iff_log_lt (by decide) positive']
    calc x < ((significand + 1 : Nat) : ℝ) * 2 ^ exponent := upper
      _ ≤ 2 ^ (significand.log2 + 1) * 2 ^ exponent := by gcongr
      _ = ((2 : ℕ) : ℝ) ^ (significand.log2 + exponent + 1) := by
          rw [Nat.cast_ofNat, ← zpow_natCast, ← zpow_add₀ two_ne_zero]
          congr 1
          push_cast
          ring
  · have digits : (2 : ℝ) ^ significand.log2 ≤ significand := by
      exact_mod_cast Nat.log2_self_le positive.ne'
    rw [← Int.zpow_le_iff_le_log (by decide) positive']
    calc ((2 : ℕ) : ℝ) ^ (significand.log2 + exponent) = 2 ^ significand.log2 * 2 ^ exponent := by
          rw [Nat.cast_ofNat, ← zpow_natCast, ← zpow_add₀ two_ne_zero]
      _ ≤ significand * 2 ^ exponent := by gcongr
      _ ≤ x := lower

theorem unitExponent_of_digits {significand : Nat} {exponent : Int} (positive : 0 < significand)
    (lower : magnitude significand exponent ≤ x) (upper : x < magnitude (significand + 1) exponent) :
    unitExponent format x = format.targetExponent (totalExponent significand exponent) := by
  have positive' : 0 < x := (magnitude_pos positive exponent).trans_le lower
  rw [unitExponent, abs_of_pos positive', log_of_digits positive lower upper, totalExponent]
  congr 1
  omega

theorem magnitude_lt_succ (significand : Nat) (exponent : Int) :
    magnitude significand exponent < magnitude (significand + 1) exponent := by
  have scale : (0 : ℝ) < 2 ^ exponent := by positivity
  unfold magnitude
  gcongr
  exact_mod_cast Nat.lt_succ_self significand

theorem rounded_of_target {significand : Nat} {exponent : Int} (positive : 0 < significand)
    (target : exponent = format.targetExponent (totalExponent significand exponent)) :
    rounded format (magnitude significand exponent) = magnitude significand exponent := by
  have whole := nearestEven_intCast significand
  rw [Int.cast_natCast] at whole
  have unit := unitExponent_of_digits format positive le_rfl (magnitude_lt_succ significand exponent)
  rw [rounded_eq, unit, ← target, magnitude, mul_div_assoc, div_self (by positivity), mul_one, whole,
    Int.cast_natCast]

theorem minExponent_nonpos : format.minExponent ≤ 0 := by
  have power : 1 ≤ (2 : ℤ) ^ (format.exponentBits - 1) := one_le_pow₀ one_le_two
  have digits := format.hm
  simp only [Format.minExponent, Format.mantissaBits]
  omega

/-- A whole number of units is not rounded, if the format has the unit and digits enough for the number. -/
theorem rounded_of_short {count exponent : ℤ} (units : x = count * 2 ^ exponent)
    (short : |count| < 2 ^ format.mantissaBits) (above : format.minExponent ≤ exponent) :
    rounded format x = x := by
  obtain rfl | nonzero := eq_or_ne count 0
  · rw [units, Int.cast_zero, zero_mul, rounded_zero]
  have size : |x| < ((2 : ℕ) : ℝ) ^ (format.mantissaBits + exponent : ℤ) := by
    have short' : |(count : ℝ)| < 2 ^ format.mantissaBits := by exact_mod_cast short
    have scale : (0 : ℝ) < 2 ^ exponent := by positivity
    rw [units, abs_mul, abs_of_pos scale, Nat.cast_ofNat, zpow_add₀ two_ne_zero, zpow_natCast]
    gcongr
  have nonzero' : x ≠ 0 := by
    rw [units]
    positivity
  have log := (Int.lt_zpow_iff_log_lt (by decide) (abs_pos.mpr nonzero')).mp size
  have fine : unitExponent format x ≤ exponent := by
    simp only [unitExponent, Format.targetExponent]
    omega
  -- The format uses a finer unit for the number, in which it is whole as well.
  obtain ⟨shift, split⟩ := Int.le.dest fine
  have scaled : x / 2 ^ unitExponent format x = ((count * 2 ^ shift : ℤ) : ℝ) := by
    rw [div_eq_iff (by positivity), Int.cast_mul, Int.cast_pow, Int.cast_ofNat, mul_assoc, ← zpow_natCast,
      ← zpow_add₀ two_ne_zero, add_comm, split]
    exact units
  rw [rounded_eq, scaled, nearestEven_intCast, ← scaled, div_mul_cancel₀ _ (by positivity)]

theorem rounded_intCast {count : ℤ} (short : |count| < 2 ^ format.mantissaBits) :
    rounded format count = count :=
  rounded_of_short format (by rw [zpow_zero, mul_one]) short (minExponent_nonpos format)

theorem rounded_natCast {count : ℕ} (short : count < 2 ^ format.mantissaBits) :
    rounded format count = count := by
  have short' : |(count : ℤ)| < 2 ^ format.mantissaBits := by
    rw [Nat.abs_cast]
    exact_mod_cast short
  exact_mod_cast rounded_intCast format short'

theorem le_rounded {count : ℤ} (short : |count| < 2 ^ format.mantissaBits) (atLeast : count ≤ x) :
    count ≤ rounded format x := by
  rw [← rounded_intCast format short]
  exact rounded_mono format atLeast

theorem rounded_le {count : ℤ} (short : |count| < 2 ^ format.mantissaBits) (atMost : x ≤ count) :
    rounded format x ≤ count := by
  rw [← rounded_intCast format short]
  exact rounded_mono format atMost

/-! ### Powers of two -/

/-- What is a quarter of a unit above a power of two is rounded down to it. -/
theorem rounded_add_tiny {power : ℤ} (normal : format.minExponent + format.mantissaBits ≤ power + 1) :
    rounded format (2 ^ power + 2 ^ (power - format.mantissaBits - 1)) = 2 ^ power := by
  have digits := mantissaBits_pos format
  have tiny : (2 : ℝ) ^ (power - format.mantissaBits - 1) < 2 ^ power :=
    zpow_lt_zpow_right₀ one_lt_two (by omega)
  have unit : unitExponent format (2 ^ power + 2 ^ (power - format.mantissaBits - 1)) =
      power + 1 - format.mantissaBits := by
    have lower : magnitude 1 power ≤ 2 ^ power + 2 ^ (power - format.mantissaBits - 1) := by
      simp only [magnitude, Nat.cast_one, one_mul, le_add_iff_nonneg_right]
      positivity
    have upper : (2 : ℝ) ^ power + 2 ^ (power - format.mantissaBits - 1) < magnitude (1 + 1) power := by
      simp only [magnitude, Nat.cast_add, Nat.cast_one]
      linarith
    have one : Nat.log2 1 = 0 := by decide
    rw [unitExponent_of_digits format Nat.one_pos lower upper, totalExponent, one, Format.targetExponent]
    omega
  have scaled : ((2 : ℝ) ^ power + 2 ^ (power - format.mantissaBits - 1)) /
      2 ^ (power + 1 - format.mantissaBits) =
        ((2 ^ (format.mantissaBits - 1) : ℤ) : ℝ) + 1 / 4 := by
    rw [add_div, ← zpow_sub₀ two_ne_zero, ← zpow_sub₀ two_ne_zero,
      show power - (power + 1 - format.mantissaBits) = ((format.mantissaBits - 1 : ℕ) : ℤ) by omega,
      show power - format.mantissaBits - 1 - (power + 1 - format.mantissaBits) = -2 by omega,
      zpow_natCast]
    norm_num
  have low : Int.fract (1 / 4 : ℝ) = 1 / 4 := Int.fract_eq_self.mpr (by norm_num)
  rw [rounded_eq, unit, scaled, nearestEven_of_low, Int.floor_intCast_add]
  · have quarter : ⌊(1 / 4 : ℝ)⌋ = 0 := Int.floor_eq_zero_iff.mpr (by norm_num)
    rw [quarter, add_zero, Int.cast_pow, Int.cast_ofNat, ← zpow_natCast, ← zpow_add₀ two_ne_zero]
    congr 1
    omega
  · rw [Int.fract_intCast_add, low]
    norm_num

/-- A power of two bounds its rounded neighbors, a little above it too. -/
theorem rounded_le_two_pow {power : ℤ} (normal : format.minExponent + format.mantissaBits ≤ power + 1)
    (atMost : x ≤ 2 ^ power + 2 ^ (power - format.mantissaBits - 1)) : rounded format x ≤ 2 ^ power :=
  (rounded_mono format atMost).trans_eq (rounded_add_tiny format normal)

end Rounded

end EvoRaster.Numeric
