import Mathlib
import EvoRaster.Proofs.Precision.Packing

/-!
Contract: numbers are compared by what they stand for.

Owns:
- `value`, the extended real number that a decoded number stands for;
- `compare_value`, by which canonical numbers are compared by their values, although the comparison looks at
  exponents first and at significands only if they are equal;
- `isLE_compare` and `isLT_compare`, for the undefined value too;
- `le_iff_valueOf` and `lt_iff_valueOf` for doubles, and the laws of order that follow from them.

Zeros of either sign have one value. The undefined value is not compared with anything, itself included.
-/

namespace EvoRaster.Numeric

open Float.Model (Format UnpackedFloat totalExponent)
open Float.Model.UnpackedFloat

/-! ## Values -/

/-- The size of a finite number, without its sign. -/
noncomputable def magnitude (significand : Nat) (exponent : Int) : ℝ := significand * 2 ^ exponent

/-- What a decoded number stands for. The undefined value stands for nothing and counts as zero. -/
noncomputable def value : UnpackedFloat → EReal
  | .infinity .positive => ⊤
  | .infinity .negative => ⊥
  | .notANumber => 0
  | .zero _ => 0
  | .finite .positive significand exponent _ => (magnitude significand exponent : ℝ)
  | .finite .negative significand exponent _ => (-magnitude significand exponent : ℝ)

theorem magnitude_pos {significand : Nat} (positive : 0 < significand) (exponent : Int) :
    0 < magnitude significand exponent := by
  unfold magnitude
  positivity

section Canonical

variable {format : Format} {sign sign' : Sign} {significand significand' : Nat}
  {exponent exponent' : Int} {positive : 0 < significand} {positive' : 0 < significand'}

/-- A canonical number has at most as many digits as the format keeps, and exactly as many if its exponent is
not the lowest. So a larger exponent is a larger number, whatever the digits are. -/
private theorem magnitude_lt_of_exponent_lt
    (canonical : Canonical format (.finite sign significand exponent positive))
    (canonical' : Canonical format (.finite sign' significand' exponent' positive'))
    (less : exponent < exponent') :
    magnitude significand exponent < magnitude significand' exponent' := by
  obtain ⟨target, -⟩ := canonical
  obtain ⟨target', -⟩ := canonical'
  simp only [Format.targetExponent, totalExponent] at target target'
  have short : significand < 2 ^ format.mantissaBits := (Nat.log2_lt positive.ne').mp (by omega)
  have full : 2 ^ (format.mantissaBits - 1) ≤ significand' := (Nat.le_log2 positive'.ne').mp (by omega)
  have digits : format.mantissaBits ≠ 0 := by simp [Format.mantissaBits]
  calc magnitude significand exponent < 2 ^ format.mantissaBits * 2 ^ exponent := by
        unfold magnitude
        have : (significand : ℝ) < 2 ^ format.mantissaBits := by exact_mod_cast short
        gcongr
    _ = 2 ^ (format.mantissaBits - 1) * 2 ^ (exponent + 1) := by
        rw [zpow_add₀ two_ne_zero, ← pow_sub_one_mul digits]
        ring
    _ ≤ magnitude significand' exponent' := by
        unfold magnitude
        have : (2 : ℝ) ^ (format.mantissaBits - 1) ≤ significand' := by exact_mod_cast full
        gcongr
        · norm_num
        · omega

theorem compare_magnitude
    (canonical : Canonical format (.finite sign significand exponent positive))
    (canonical' : Canonical format (.finite sign' significand' exponent' positive')) :
    (compare exponent exponent').then (compare significand significand') =
      compare (magnitude significand exponent) (magnitude significand' exponent') := by
  rcases lt_trichotomy exponent exponent' with less | rfl | greater
  · rw [compare_lt_iff_lt.mpr less,
      compare_lt_iff_lt.mpr (magnitude_lt_of_exponent_lt canonical canonical' less)]
    rfl
  · have scale : (0 : ℝ) < 2 ^ exponent := by positivity
    rw [compare_eq_iff_eq.mpr rfl]
    rcases lt_trichotomy significand significand' with less | rfl | greater
    · have smaller : magnitude significand exponent < magnitude significand' exponent := by
        unfold magnitude
        gcongr
      rw [compare_lt_iff_lt.mpr less, compare_lt_iff_lt.mpr smaller]
      rfl
    · simp
    · have larger : magnitude significand' exponent < magnitude significand exponent := by
        unfold magnitude
        gcongr
      rw [compare_gt_iff_gt.mpr greater, compare_gt_iff_gt.mpr larger]
      rfl
  · rw [compare_gt_iff_gt.mpr greater,
      compare_gt_iff_gt.mpr (magnitude_lt_of_exponent_lt canonical' canonical greater)]
    rfl

end Canonical

/-! ## Comparison -/

private theorem compare_coe (left right : ℝ) : compare (left : EReal) (right : EReal) = compare left right := by
  rw [← cmp_eq_compare, ← cmp_eq_compare]
  exact EReal.coe_strictMono.cmp_map_eq left right

private theorem compare_neg_neg (left right : ℝ) : compare (-left) (-right) = (compare left right).swap := by
  rw [← cmp_eq_compare, ← cmp_eq_compare, cmp_swap]
  have antitone : StrictAnti fun number : ℝ => -number := fun _ _ less => neg_lt_neg less
  exact antitone.cmp_map_eq left right

/-- Canonical numbers of one format are compared by their values. -/
theorem compare_value {format : Format} {left right : UnpackedFloat} (canonical : Canonical format left)
    (canonical' : Canonical format right) (isNumber : left ≠ .notANumber)
    (isNumber' : right ≠ .notANumber) :
    left.compare right = some (compare (value left) (value right)) := by
  symm
  cases left with
  | notANumber => exact absurd rfl isNumber
  | infinity sign =>
      cases right with
      | notANumber => exact absurd rfl isNumber'
      | infinity sign' =>
          cases sign <;> cases sign'
          · exact congrArg some (compare_eq_iff_eq.mpr rfl)
          · exact congrArg some (compare_lt_iff_lt.mpr bot_lt_top)
          · exact congrArg some (compare_gt_iff_gt.mpr bot_lt_top)
          · exact congrArg some (compare_eq_iff_eq.mpr rfl)
      | zero sign' =>
          cases sign <;> simp [UnpackedFloat.compare, value, compare_lt_iff_lt, compare_gt_iff_gt]
      | finite sign' significand' exponent' positive' =>
          cases sign <;> cases sign' <;>
            simp [UnpackedFloat.compare, value, compare_lt_iff_lt, compare_gt_iff_gt, -EReal.coe_neg]
  | zero sign =>
      cases right with
      | notANumber => exact absurd rfl isNumber'
      | infinity sign' =>
          cases sign' <;> simp [UnpackedFloat.compare, value, compare_lt_iff_lt, compare_gt_iff_gt]
      | zero sign' => simp [UnpackedFloat.compare, value]
      | finite sign' significand' exponent' positive' =>
          have size' := magnitude_pos positive' exponent'
          cases sign' <;>
            simp [UnpackedFloat.compare, value, compare_lt_iff_lt, compare_gt_iff_gt, size']
  | finite sign significand exponent positive =>
      have size := magnitude_pos positive exponent
      cases right with
      | notANumber => exact absurd rfl isNumber'
      | infinity sign' =>
          cases sign <;> cases sign' <;>
            simp [UnpackedFloat.compare, value, compare_lt_iff_lt, compare_gt_iff_gt, -EReal.coe_neg]
      | zero sign' =>
          cases sign <;>
            simp [UnpackedFloat.compare, value, compare_lt_iff_lt, compare_gt_iff_gt, size]
      | finite sign' significand' exponent' positive' =>
          have size' := magnitude_pos positive' exponent'
          cases sign <;> cases sign' <;>
            simp only [UnpackedFloat.compare, value, compare_coe, compare_magnitude canonical canonical']
          · rw [compare_neg_neg]
          · rw [compare_lt_iff_lt.mpr (by linarith)]
          · rw [compare_gt_iff_gt.mpr (by linarith)]

section Decoded

variable {format : Format} {left right : UnpackedFloat}

/-- The undefined value is not compared with anything. -/
theorem compare_undefined (undefined : ¬(left ≠ .notANumber ∧ right ≠ .notANumber)) :
    left.compare right = none := by
  cases left with
  | notANumber => rfl
  | infinity sign | zero sign | finite sign =>
      obtain rfl : right = .notANumber := by simpa using undefined
      cases sign <;> rfl

theorem isLE_compare (canonical : Canonical format left) (canonical' : Canonical format right) :
    (left.compare right).any (·.isLE) = true ↔
      left ≠ .notANumber ∧ right ≠ .notANumber ∧ value left ≤ value right := by
  by_cases numbers : left ≠ .notANumber ∧ right ≠ .notANumber
  · simp [compare_value canonical canonical' numbers.1 numbers.2, numbers, Ordering.isLE_iff_ne_gt,
      compare_le_iff_le]
  · simp only [compare_undefined numbers, Option.any_none, Bool.false_eq_true, false_iff]
    tauto

theorem isLT_compare (canonical : Canonical format left) (canonical' : Canonical format right) :
    (left.compare right == some .lt) = true ↔
      left ≠ .notANumber ∧ right ≠ .notANumber ∧ value left < value right := by
  by_cases numbers : left ≠ .notANumber ∧ right ≠ .notANumber
  · simp [compare_value canonical canonical' numbers.1 numbers.2, numbers, compare_lt_iff_lt]
  · simp only [compare_undefined numbers, Option.none_beq_some, Bool.false_eq_true, false_iff]
    tauto

end Decoded

/-! ## The order of doubles -/

/-- What a number in double precision stands for. -/
noncomputable def valueOf (x : Float) : EReal := value x.toModel.unpack

/-- The number is not the undefined value. -/
def IsNumber (x : Float) : Prop := x.isNaN = false

theorem canonical_toModel (x : Float) : Canonical .binary64 x.toModel.unpack :=
  canonical_unpack (by decide) _

theorem isNumber_iff {x : Float} : IsNumber x ↔ x.toModel.unpack ≠ .notANumber := by
  show x.toModel.unpack.isNaN = false ↔ _
  cases x.toModel.unpack <;> simp [UnpackedFloat.isNaN]

section Order

variable {x y z : Float}

theorem le_iff_valueOf : x ≤ y ↔ IsNumber x ∧ IsNumber y ∧ valueOf x ≤ valueOf y := by
  rw [isNumber_iff, isNumber_iff]
  exact decide_eq_true_iff.trans (isLE_compare (canonical_toModel x) (canonical_toModel y))

theorem lt_iff_valueOf : x < y ↔ IsNumber x ∧ IsNumber y ∧ valueOf x < valueOf y := by
  rw [isNumber_iff, isNumber_iff]
  exact decide_eq_true_iff.trans (isLT_compare (canonical_toModel x) (canonical_toModel y))

namespace Double

theorem le_refl (isNumber : IsNumber x) : x ≤ x :=
  le_iff_valueOf.mpr ⟨isNumber, isNumber, le_rfl⟩

theorem lt_irrefl (x : Float) : ¬x < x := fun less => (lt_iff_valueOf.mp less).2.2.false

theorem le_trans (first : x ≤ y) (second : y ≤ z) : x ≤ z := by
  obtain ⟨isNumber, -, lower⟩ := le_iff_valueOf.mp first
  obtain ⟨-, isNumber', upper⟩ := le_iff_valueOf.mp second
  exact le_iff_valueOf.mpr ⟨isNumber, isNumber', lower.trans upper⟩

theorem lt_of_lt_of_le (first : x < y) (second : y ≤ z) : x < z := by
  obtain ⟨isNumber, -, lower⟩ := lt_iff_valueOf.mp first
  obtain ⟨-, isNumber', upper⟩ := le_iff_valueOf.mp second
  exact lt_iff_valueOf.mpr ⟨isNumber, isNumber', lower.trans_le upper⟩

theorem le_of_lt (less : x < y) : x ≤ y := by
  obtain ⟨isNumber, isNumber', values⟩ := lt_iff_valueOf.mp less
  exact le_iff_valueOf.mpr ⟨isNumber, isNumber', values.le⟩

/-- Two numbers that are not undefined are ordered one way or the other. -/
theorem le_of_not_lt (isNumber : IsNumber x) (isNumber' : IsNumber y) (notLess : ¬x < y) : y ≤ x := by
  refine le_iff_valueOf.mpr ⟨isNumber', isNumber, not_lt.mp fun values => ?_⟩
  exact notLess (lt_iff_valueOf.mpr ⟨isNumber, isNumber', values⟩)

theorem isNumber_of_lt (less : x < y) : IsNumber x := (lt_iff_valueOf.mp less).1

end Double

end Order

end EvoRaster.Numeric
