import EvoRaster.Proofs.Precision.Rounding
import EvoRaster.Proofs.Text.Reading

/-!
Contract: the shortest decimal of a binary number is rounded back to it.

Owns:
- `Covers`, by which a real number lies between the midpoints around a binary number, and `contains_iff`, by which the
  integer arithmetic of the search decides it;
- `covers_shortest`: whatever the search finds lies there, and so does what is written if it finds nothing;
- `rounded_of_covers`: a number between the midpoints is rounded to the binary number in the middle;
- `rounded_shortest`, which follows.

Does not own: that the decimal has the fewest digits.
-/

namespace EvoRaster.Decimal

open Float.Model (Format totalExponent)
open Numeric

/-! ## Between the midpoints -/

/-- The number lies between the midpoints. It may be one of them if the neighbourhood is closed. -/
def Neighbourhood.Covers (around : Neighbourhood) (x : ℝ) : Prop :=
  magnitude around.low around.unit ≤ x ∧ x ≤ magnitude around.high around.unit ∧
    (around.closed = true ∨ magnitude around.low around.unit < x ∧ x < magnitude around.high around.unit)

private theorem zpow_eq_div {base : ℝ} (nonzero : base ≠ 0) (exponent : ℤ) :
    base ^ exponent = base ^ exponent.toNat / base ^ (-exponent).toNat := by
  rw [← zpow_natCast, ← zpow_natCast, ← zpow_sub₀ nonzero]
  congr 1
  omega

private theorem gridRatio_snd_pos (unit power : ℤ) : 0 < (gridRatio unit power).2 := by
  simp only [gridRatio, Nat.pow_eq]
  positivity

/-- The quotient is that of the unit and the step of the grid. -/
theorem gridRatio_eq (unit power : ℤ) :
    ((gridRatio unit power).1 : ℝ) * 10 ^ power = (gridRatio unit power).2 * 2 ^ unit := by
  rw [zpow_eq_div (by norm_num) power, zpow_eq_div two_ne_zero unit]
  simp only [gridRatio, Nat.pow_eq]
  push_cast
  field_simp

/-- Positions compare with multiples of the numerator as points of the grid do with multiples of the unit. -/
theorem cmp_position (count point : Nat) (unit power : ℤ) :
    cmp (count * (gridRatio unit power).1) (point * (gridRatio unit power).2) =
      cmp (magnitude count unit) (point * 10 ^ power) := by
  have ratio := gridRatio_eq unit power
  have denominator : (0 : ℝ) < (gridRatio unit power).2 := by exact_mod_cast gridRatio_snd_pos unit power
  have step : (0 : ℝ) < 10 ^ power := by positivity
  have left : ((count * (gridRatio unit power).1 : Nat) : ℝ) * 10 ^ power =
      (gridRatio unit power).2 * magnitude count unit := by
    rw [Nat.cast_mul, mul_assoc, ratio, magnitude]
    ring
  have right : ((point * (gridRatio unit power).2 : Nat) : ℝ) * 10 ^ power =
      (gridRatio unit power).2 * (point * 10 ^ power) := by
    push_cast
    ring
  rw [← Nat.strictMono_cast (α := ℝ).cmp_map_eq, ← (strictMono_mul_right_of_pos step).cmp_map_eq, left, right,
    (strictMono_mul_left_of_pos denominator).cmp_map_eq]

theorem contains_iff {around : Neighbourhood} {power : ℤ} {point : Nat} :
    around.contains power point = true ↔ around.Covers (point * 10 ^ power) := by
  have low := cmp_position around.low point around.unit power
  have high := cmp_eq_cmp_symm.mp (cmp_position around.high point around.unit power)
  rw [Neighbourhood.Covers, ← le_iff_le_of_cmp_eq_cmp low, ← le_iff_le_of_cmp_eq_cmp high,
    ← lt_iff_lt_of_cmp_eq_cmp low, ← lt_iff_lt_of_cmp_eq_cmp high]
  unfold Neighbourhood.contains
  cases around.closed
  · simp only [Bool.false_eq_true, if_false, Bool.and_eq_true, decide_eq_true_eq, false_or]
    exact ⟨fun inside => ⟨inside.1.le, inside.2.le, inside⟩, fun inside => inside.2.2⟩
  · simp only [if_true, Bool.and_eq_true, decide_eq_true_eq, true_or, and_true]

/-! ## What the search finds -/

section Search

variable {around : Neighbourhood}

/-- Of the two points that are tried, only one in the neighbourhood is taken. -/
private theorem contains_of_nearestOn? {power : ℤ} {point : Nat} (found : around.nearestOn? power = some point) :
    around.contains power point = true := by
  simp only [Neighbourhood.nearestOn?] at found
  generalize around.value * (gridRatio around.unit power).1 / (gridRatio around.unit power).2 = below at found
  cases inside : around.contains power below <;> cases inside' : around.contains power (below + 1) <;>
    simp only [inside, inside'] at found
  · cases found
  · cases found
    exact inside'
  · cases found
    exact inside
  -- The tie is settled by parity, which picks one of the two.
  · split_ifs at found with nearer tie
    · cases found
      exact inside
    · obtain even | odd := Nat.mod_two_eq_zero_or_one below
      · rw [even] at found
        cases found
        exact inside
      · rw [odd] at found
        cases found
        exact inside'
    · cases found
      exact inside'

theorem covers_of_search? {grids : Nat} {power : ℤ} {number : Decimal}
    (found : around.search? grids power = some number) : around.Covers number.size := by
  induction grids generalizing power with
  | zero => cases found
  | succ grids inductionHypothesis =>
      rw [Neighbourhood.search?] at found
      cases nearest : around.nearestOn? power with
      | none =>
          rw [nearest] at found
          exact inductionHypothesis found
      | some coefficient =>
          rw [nearest] at found
          cases found
          exact contains_iff.mp (contains_of_nearestOn? nearest)

end Search

private theorem size_exact (significand : Nat) (exponent : ℤ) :
    (exact significand exponent).size = magnitude significand exponent := by
  unfold exact
  split_ifs with whole
  · have none : (-exponent).toNat = 0 := by omega
    rw [size, magnitude, zpow_zero, mul_one, zpow_eq_div two_ne_zero exponent, none, pow_zero, div_one, Nat.pow_eq]
    push_cast
    rfl
  · have places : ((-exponent).toNat : ℤ) = -exponent := by omega
    have ten : (10 : ℝ) ^ exponent = 2 ^ exponent * 5 ^ exponent := by
      rw [← mul_zpow]
      norm_num
    have cancels : (5 : ℝ) ^ (-exponent).toNat * 5 ^ exponent = 1 := by
      rw [← zpow_natCast, places, ← zpow_add₀ (by norm_num), neg_add_cancel, zpow_zero]
    rw [size, magnitude, ten, Nat.pow_eq]
    push_cast
    calc (significand : ℝ) * 5 ^ (-exponent).toNat * (2 ^ exponent * 5 ^ exponent)
        = significand * 2 ^ exponent * (5 ^ (-exponent).toNat * 5 ^ exponent) := by ring
      _ = significand * 2 ^ exponent := by rw [cancels, mul_one]

/-! ## Rounding back -/

/-- A power of two above the lowest exponent. Its neighbour below is half as far away as the one above. -/
def Halved (format : Format) (significand : Nat) (exponent : ℤ) : Prop :=
  significand = 2 ^ (format.mantissaBits - 1) ∧ format.minExponent < exponent

instance (format : Format) (significand : Nat) (exponent : ℤ) : Decidable (Halved format significand exponent) :=
  inferInstanceAs (Decidable (_ ∧ _))

/-- How far below a number the lower midpoint is, in quarters of a unit of its last digit. -/
def quartersBelow (format : Format) (significand : Nat) (exponent : ℤ) : Nat :=
  if Halved format significand exponent then 1 else 2

section Midpoints

variable {format : Format} {significand : Nat} {exponent : ℤ} {x : ℝ}

private theorem quarter_magnitude (count : Nat) (exponent : ℤ) :
    magnitude count (exponent - 2) = count / 4 * 2 ^ exponent := by
  rw [magnitude, zpow_sub₀ two_ne_zero]
  norm_num
  ring

private theorem magnitude_low (positive : 0 < significand) :
    magnitude (Neighbourhood.of format significand exponent).low (exponent - 2) =
      (significand - quartersBelow format significand exponent / 4) * 2 ^ exponent := by
  have halved : (significand == Nat.pow 2 (format.mantissaBits - 1) && decide (format.minExponent < exponent)) = true ↔
      Halved format significand exponent := by simp [Halved]
  rw [quarter_magnitude, quartersBelow]
  by_cases isHalved : Halved format significand exponent
  · simp only [Neighbourhood.of, if_pos (halved.mpr isHalved), if_pos isHalved]
    rw [Nat.cast_sub (by omega)]
    push_cast
    ring
  · simp only [Neighbourhood.of, if_neg (mt halved.mp isHalved), if_neg isHalved]
    rw [Nat.cast_sub (by omega)]
    push_cast
    ring

private theorem magnitude_high :
    magnitude (Neighbourhood.of format significand exponent).high (exponent - 2) =
      (significand + 1 / 2) * 2 ^ exponent := by
  rw [quarter_magnitude]
  simp only [Neighbourhood.of]
  push_cast
  ring

theorem covers_iff (positive : 0 < significand) :
    (Neighbourhood.of format significand exponent).Covers x ↔
      significand - quartersBelow format significand exponent / 4 ≤ x / 2 ^ exponent ∧
        x / 2 ^ exponent ≤ significand + 1 / 2 ∧
          (significand % 2 = 0 ∨
            significand - quartersBelow format significand exponent / 4 < x / 2 ^ exponent ∧
              x / 2 ^ exponent < significand + 1 / 2) := by
  have scale : (0 : ℝ) < 2 ^ exponent := by positivity
  rw [le_div_iff₀ scale, div_le_iff₀ scale, lt_div_iff₀ scale, div_lt_iff₀ scale, ← magnitude_low positive,
    ← @magnitude_high format significand, Neighbourhood.Covers]
  simp [Neighbourhood.of]

private theorem quartersBelow_pos (format : Format) (significand : Nat) (exponent : ℤ) :
    (0 : ℝ) < quartersBelow format significand exponent := by
  unfold quartersBelow
  split_ifs <;> norm_num

theorem quartersBelow_le (format : Format) (significand : Nat) (exponent : ℤ) :
    (quartersBelow format significand exponent : ℝ) ≤ 2 := by
  unfold quartersBelow
  split_ifs <;> norm_num

theorem covers_magnitude (positive : 0 < significand) :
    (Neighbourhood.of format significand exponent).Covers (magnitude significand exponent) := by
  have below := quartersBelow_pos format significand exponent
  have scaled : magnitude significand exponent / 2 ^ exponent = significand := by
    rw [magnitude, mul_div_assoc, div_self (by positivity), mul_one]
  rw [covers_iff positive, scaled]
  exact ⟨by linarith, by linarith, .inr ⟨by linarith, by linarith⟩⟩

theorem covers_shortest (positive : 0 < significand) :
    (Neighbourhood.of format significand exponent).Covers (shortest format significand exponent).size := by
  simp only [shortest]
  cases found : (Neighbourhood.of format significand exponent).search? gridLimit (powerAbove significand exponent) with
  | some number => exact covers_of_search? found
  | none =>
      rw [Option.getD_none, size_exact]
      exact covers_magnitude positive

end Midpoints

section Rounding

variable {format : Format} {significand : Nat} {exponent : ℤ} {x : ℝ}

private theorem lt_succ_of_covers (positive : 0 < significand)
    (covers : (Neighbourhood.of format significand exponent).Covers x) : x < magnitude (significand + 1) exponent := by
  have scale : (0 : ℝ) < 2 ^ exponent := by positivity
  obtain ⟨-, upper, -⟩ := (covers_iff positive).mp covers
  rw [div_le_iff₀ scale] at upper
  apply upper.trans_lt
  rw [magnitude]
  push_cast
  gcongr
  norm_num

theorem sub_quartersBelow_le_of_covers (positive : 0 < significand)
    (covers : (Neighbourhood.of format significand exponent).Covers x) :
    (significand - quartersBelow format significand exponent / 4) * 2 ^ exponent ≤ x := by
  obtain ⟨lower, -, -⟩ := (covers_iff positive).mp covers
  rwa [le_div_iff₀ (by positivity)] at lower

private theorem pos_of_covers (positive : 0 < significand)
    (covers : (Neighbourhood.of format significand exponent).Covers x) : 0 < x := by
  have lower := sub_quartersBelow_le_of_covers positive covers
  have near := quartersBelow_le format significand exponent
  have one : (1 : ℝ) ≤ significand := by exact_mod_cast positive
  apply lt_of_lt_of_le _ lower
  have : (0 : ℝ) < significand - quartersBelow format significand exponent / 4 := by linarith
  positivity

/-- No unit is smaller than the lowest one. -/
private theorem unitExponent_of_lowest (positive : 0 < significand)
    (target : exponent = format.targetExponent (totalExponent significand exponent))
    (lowest : format.minExponent = exponent) (positive' : 0 < x) (below : x ≤ magnitude significand exponent) :
    unitExponent format x = exponent := by
  apply le_antisymm
  · have monotone := unitExponent_mono format positive' below
    rwa [unitExponent_of_digits format positive le_rfl (magnitude_lt_succ significand exponent), ← target] at monotone
  · rw [← lowest]
    exact minExponent_le_unitExponent format x

/-- Unless it is a power of two, a number has as many digits as the one before it. -/
private theorem unitExponent_of_pred (positive : 0 < significand)
    (target : exponent = format.targetExponent (totalExponent significand exponent))
    (more : 2 ^ significand.log2 < significand) (lower : magnitude (significand - 1) exponent ≤ x)
    (below : x < magnitude significand exponent) : unitExponent format x = exponent := by
  have positive' : 0 < significand - 1 := by
    have := Nat.two_pow_pos significand.log2
    omega
  have log : (significand - 1).log2 = significand.log2 := by
    have := Nat.lt_log2_self (n := significand)
    rw [Nat.log2_eq_iff positive'.ne']
    omega
  have upper : x < magnitude (significand - 1 + 1) exponent := by rwa [Nat.sub_add_cancel positive]
  rw [unitExponent_of_digits format positive' lower upper, totalExponent, log, ← totalExponent, ← target]

/-- The neighbourhood reaches into smaller units only below a power of two. -/
theorem unitExponent_of_covers (positive : 0 < significand)
    (target : exponent = format.targetExponent (totalExponent significand exponent))
    (covers : (Neighbourhood.of format significand exponent).Covers x) :
    unitExponent format x = exponent ∨ Halved format significand exponent ∧ x < magnitude significand exponent := by
  have upper := lt_succ_of_covers positive covers
  rcases le_or_gt (magnitude significand exponent) x with above | below
  · exact .inl ((unitExponent_of_digits format positive above upper).trans target.symm)
  by_cases halved : Halved format significand exponent
  · exact .inr ⟨halved, below⟩
  left
  obtain lowest | higher := eq_or_lt_of_le (target ▸ le_max_right _ _ : format.minExponent ≤ exponent)
  · exact unitExponent_of_lowest positive target lowest (pos_of_covers positive covers) below.le
  · have log : significand.log2 = format.mantissaBits - 1 := by
      simp only [Format.targetExponent, totalExponent] at target
      omega
    have more : 2 ^ significand.log2 < significand :=
      lt_of_le_of_ne (Nat.log2_self_le positive.ne') fun same => halved ⟨log ▸ same.symm, higher⟩
    have lower : magnitude (significand - 1) exponent ≤ x := by
      have near := quartersBelow_le format significand exponent
      apply le_trans _ (sub_quartersBelow_le_of_covers positive covers)
      rw [magnitude, Nat.cast_sub positive]
      gcongr
      push_cast
      linarith
    exact unitExponent_of_pred positive target more lower below

private theorem rounded_of_unit (positive : 0 < significand)
    (covers : (Neighbourhood.of format significand exponent).Covers x) (unit : unitExponent format x = exponent) :
    rounded format x = magnitude significand exponent := by
  obtain ⟨lower, upper, ties⟩ := (covers_iff positive).mp covers
  have near := quartersBelow_le format significand exponent
  have nearest : nearestEven (x / 2 ^ exponent) = (significand : ℤ) := by
    apply nearestEven_of_near <;> rw [Int.cast_natCast]
    · linarith
    · exact upper
    · obtain even | ⟨lower', upper'⟩ := ties
      · exact .inl (by omega)
      · exact .inr ⟨by linarith, upper'⟩
  rw [rounded_eq, unit, nearest, magnitude, Int.cast_natCast]

/-- A number just below a power of two has one digit more in units half as large, and is rounded up. -/
private theorem rounded_of_halved (positive : 0 < significand) (halved : Halved format significand exponent)
    (covers : (Neighbourhood.of format significand exponent).Covers x) (below : x < magnitude significand exponent) :
    rounded format x = magnitude significand exponent := by
  obtain ⟨power, higher⟩ := halved
  have digits := mantissaBits_pos format
  have scale : (0 : ℝ) < 2 ^ (exponent - 1) := by positivity
  have double : magnitude significand exponent = magnitude (2 * significand) (exponent - 1) := by
    rw [magnitude, magnitude, zpow_sub_one₀ two_ne_zero]
    push_cast
    ring
  have lower : (2 * significand - 1 / 2) * 2 ^ (exponent - 1) ≤ x := by
    have bound := sub_quartersBelow_le_of_covers positive covers
    have quarter : quartersBelow format significand exponent = 1 := if_pos ⟨power, higher⟩
    rw [quarter, Nat.cast_one] at bound
    rw [zpow_sub_one₀ two_ne_zero]
    linarith
  have unit : unitExponent format x = exponent - 1 := by
    have lower' : magnitude (2 * significand - 1) (exponent - 1) ≤ x := by
      apply le_trans _ lower
      rw [magnitude, Nat.cast_sub (by omega)]
      push_cast
      gcongr
      norm_num
    have upper' : x < magnitude (2 * significand - 1 + 1) (exponent - 1) := by
      rwa [Nat.sub_add_cancel (by omega), ← double]
    have log : (2 * significand - 1).log2 = format.mantissaBits - 1 := by
      rw [Nat.log2_eq_iff (by omega), Nat.pow_succ, ← power]
      omega
    rw [unitExponent_of_digits format (by omega) lower' upper', totalExponent, log, Format.targetExponent]
    omega
  have nearest : nearestEven (x / 2 ^ (exponent - 1)) = ((2 * significand : Nat) : ℤ) := by
    rw [double, magnitude] at below
    rw [← le_div_iff₀ scale] at lower
    rw [← div_lt_iff₀ scale] at below
    push_cast at below
    apply nearestEven_of_near <;> push_cast
    · exact lower
    · linarith
    · exact .inl (by omega)
  rw [double, rounded_eq, unit, nearest, magnitude, Int.cast_natCast]

theorem rounded_of_covers (positive : 0 < significand)
    (target : exponent = format.targetExponent (totalExponent significand exponent))
    (covers : (Neighbourhood.of format significand exponent).Covers x) :
    rounded format x = magnitude significand exponent := by
  obtain unit | ⟨halved, below⟩ := unitExponent_of_covers positive target covers
  · exact rounded_of_unit positive covers unit
  · exact rounded_of_halved positive halved covers below

/-- The shortest decimal of a number of the format is rounded to that number. -/
theorem rounded_shortest (positive : 0 < significand)
    (target : exponent = format.targetExponent (totalExponent significand exponent)) :
    rounded format (shortest format significand exponent).size = magnitude significand exponent :=
  rounded_of_covers positive target (covers_shortest positive)

end Rounding

end EvoRaster.Decimal
