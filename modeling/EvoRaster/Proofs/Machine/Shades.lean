import EvoRaster.Proofs.Precision.Single
import EvoRaster.Proofs.Machine.Rendering

/-!
Contract: the gray samples of values.

Owns:
- `clampToUnit_represents`: a clamped value is finite, whatever the value is, and keeps the order of values;
- `shade`, the number that becomes a sample, and its bounds;
- `Shaded`, by which every value has a shade and every shade is cut off to a sample between 1 and 255;
- `one_le_of_render`: no rendered sample is zero.
-/

namespace EvoRaster

open Numeric

/-! ## Clamping -/

section Clamping

variable {value left right : Float32}

/-- What is not at most one becomes one. -/
theorem clampToUnit_of_not_le (above : ¬value ≤ 1) : clampToUnit value = 1 := by
  have order : ¬(1 : Float32) < -1 := by decide
  simp only [clampToUnit, if_neg above, if_neg order]

theorem clampToUnit_of_lt (atMost : value ≤ 1) (below : value < -1) : clampToUnit value = -1 := by
  simp only [clampToUnit, if_pos atMost, if_pos below]

theorem clampToUnit_of_between (atMost : value ≤ 1) (atLeast : ¬value < -1) : clampToUnit value = value := by
  simp only [clampToUnit, if_pos atMost, if_neg atLeast]

theorem clampToUnit_of_not_isNumber (undefined : ¬Single.IsNumber value) : clampToUnit value = 1 :=
  clampToUnit_of_not_le fun atMost => undefined (Single.le_iff_valueOf.mp atMost).1

private theorem le_one_iff : value ≤ 1 ↔ Single.IsNumber value ∧ Single.valueOf value ≤ (1 : ℝ) := by
  rw [Single.le_iff_valueOf, Single.represents_one.valueOf_eq]
  simp [Single.represents_one.isNumber]

private theorem lt_neg_one_iff : value < -1 ↔ Single.IsNumber value ∧ Single.valueOf value < (-1 : ℝ) := by
  rw [Single.lt_iff_valueOf, Single.represents_neg_one.valueOf_eq]
  simp [Single.represents_neg_one.isNumber]

theorem clampToUnit_eq (value : Float32) :
    clampToUnit value = if value ≤ 1 then if value < -1 then -1 else value else 1 := by
  split
  · rename_i atMost
    split
    · rename_i below
      exact clampToUnit_of_lt atMost below
    · rename_i atLeast
      exact clampToUnit_of_between atMost atLeast
  · rename_i above
    exact clampToUnit_of_not_le above

/-- A clamped value is a number between minus one and one, the nearest one to the value. -/
theorem clampToUnit_represents (value : Float32) :
    ∃ size : ℝ, Single.Represents (clampToUnit value) size ∧ -1 ≤ size ∧ size ≤ 1 ∧
      (Single.IsNumber value → (size : EReal) = max ((-1 : ℝ) : EReal) (min (Single.valueOf value) (1 : ℝ))) := by
  have unit : ((-1 : ℝ) : EReal) ≤ (1 : ℝ) := EReal.coe_le_coe_iff.mpr (by norm_num)
  by_cases atMost : value ≤ 1
  · obtain ⟨isNumber, most⟩ := le_one_iff.mp atMost
    by_cases below : value < -1
    · have less := (lt_neg_one_iff.mp below).2
      rw [clampToUnit_of_lt atMost below]
      refine ⟨-1, Single.represents_neg_one, le_rfl, by norm_num, fun _ => ?_⟩
      rw [min_eq_left most, max_eq_left less.le]
    · have least : ((-1 : ℝ) : EReal) ≤ Single.valueOf value :=
        not_lt.mp fun less => below (lt_neg_one_iff.mpr ⟨isNumber, less⟩)
      obtain ⟨size, represents⟩ := Single.exists_of_between isNumber least most
      rw [clampToUnit_of_between atMost below]
      rw [represents.valueOf_eq] at least most ⊢
      refine ⟨size, represents, EReal.coe_le_coe_iff.mp least, EReal.coe_le_coe_iff.mp most, fun _ => ?_⟩
      rw [min_eq_left most, max_eq_right least]
  · rw [clampToUnit_of_not_le atMost]
    refine ⟨1, Single.represents_one, by norm_num, le_rfl, fun isNumber => ?_⟩
    have more : ((1 : ℝ) : EReal) < Single.valueOf value :=
      not_le.mp fun most => atMost (le_one_iff.mpr ⟨isNumber, most⟩)
    rw [min_eq_right more.le, max_eq_right unit]

end Clamping

/-! ## Shades -/

/-- The number that is cut off to a sample. -/
noncomputable def shade (size : ℝ) : ℝ := rounded .binary32 (rounded .binary32 (size * 127) + 128)

theorem shade_mono : Monotone shade := by
  intro size size' atMost
  unfold shade
  apply rounded_mono
  have scaled : rounded .binary32 (size * 127) ≤ rounded .binary32 (size' * 127) :=
    rounded_mono _ (by linarith)
  linarith

private theorem shade_neg_one : shade (-1) = 1 := by
  have scaled := rounded_intCast .binary32 (show |(-127 : ℤ)| < 2 ^ 24 by decide)
  have moved := rounded_intCast .binary32 (show |(1 : ℤ)| < 2 ^ 24 by decide)
  push_cast at scaled moved
  rw [shade, show (-1 * 127 : ℝ) = -127 by norm_num, scaled, show (-127 + 128 : ℝ) = 1 by norm_num, moved]

private theorem shade_one : shade 1 = 255 := by
  have scaled := rounded_natCast .binary32 (show 127 < 2 ^ 24 by decide)
  have moved := rounded_natCast .binary32 (show 255 < 2 ^ 24 by decide)
  push_cast at scaled moved
  rw [shade, one_mul, scaled, show (127 + 128 : ℝ) = 255 by norm_num, moved]

section Shades

variable {value left right : Float32} {size : ℝ}

theorem shade_bounds (least : -1 ≤ size) (most : size ≤ 1) : 1 ≤ shade size ∧ shade size ≤ 255 := by
  rw [← shade_neg_one, ← shade_one]
  exact ⟨shade_mono least, shade_mono most⟩

theorem shade_represents (represents : Single.Represents (clampToUnit value) size) (least : -1 ≤ size)
    (most : size ≤ 1) : Single.Represents (clampToUnit value * 127 + 128) (shade size) := by
  have large : (255 : ℝ) ≤ 2 ^ 127 := by norm_num
  obtain ⟨lower, upper⟩ := shade_bounds least most
  have lower' := le_rounded .binary32 (show |(-127 : ℤ)| < 2 ^ 24 by decide)
    (show ((-127 : ℤ) : ℝ) ≤ size * 127 by push_cast; linarith)
  have upper' := rounded_le .binary32 (show |(127 : ℤ)| < 2 ^ 24 by decide)
    (show size * 127 ≤ ((127 : ℤ) : ℝ) by push_cast; linarith)
  push_cast at lower' upper'
  have scaled := represents.mul Single.represents_127 (abs_le.mpr ⟨by linarith, by linarith⟩)
  exact scaled.add Single.represents_128 (abs_le.mpr ⟨by unfold shade at lower; linarith, upper.trans large⟩)

/-- Every value has a shade between 1 and 255, and its sample is the whole number below the shade. -/
theorem sample_shaded (value : Float32) :
    ∃ size : ℝ, -1 ≤ size ∧ size ≤ 1 ∧ Single.Represents (clampToUnit value * 127 + 128) (shade size) ∧
      ((sample value).toNat : ℤ) = ⌊shade size⌋ ∧
      (Single.IsNumber value → (size : EReal) = max ((-1 : ℝ) : EReal) (min (Single.valueOf value) (1 : ℝ))) := by
  obtain ⟨size, represents, least, most, nearest⟩ := clampToUnit_represents value
  have shaded := shade_represents represents least most
  obtain ⟨lower, upper⟩ := shade_bounds least most
  exact ⟨size, least, most, shaded, Single.toNat_toUInt8 shaded (by linarith) (by linarith), nearest⟩

theorem one_le_sample (value : Float32) : 1 ≤ (sample value).toNat := by
  obtain ⟨size, least, most, -, cut, -⟩ := sample_shaded value
  have whole : 1 ≤ ⌊shade size⌋ := Int.le_floor.mpr (by exact_mod_cast (shade_bounds least most).1)
  omega

/-- The sample of the undefined value is that of one. -/
theorem sample_of_not_isNumber (undefined : ¬Single.IsNumber value) : sample value = sample 1 := by
  have one : clampToUnit 1 = 1 := by decide
  rw [sample, clampToUnit_of_not_isNumber undefined, sample, one]

/-- Larger values have lighter samples. -/
theorem sample_mono (ordered : left ≤ right) : sample left ≤ sample right := by
  obtain ⟨isNumber, isNumber', values⟩ := Single.le_iff_valueOf.mp ordered
  obtain ⟨size, -, -, -, cut, nearest⟩ := sample_shaded left
  obtain ⟨size', -, -, -, cut', nearest'⟩ := sample_shaded right
  have clamped : (size : EReal) ≤ size' := by
    rw [nearest isNumber, nearest' isNumber']
    exact max_le_max le_rfl (min_le_min_right _ values)
  have cuts : ⌊shade size⌋ ≤ ⌊shade size'⌋ := Int.floor_le_floor (shade_mono (EReal.coe_le_coe_iff.mp clamped))
  rw [UInt8.le_iff_toNat_le]
  omega

end Shades

/-! ## Rendered samples -/

section Rendered

variable {code : Code} {width height : Nat}

private theorem one_le_of_renderRow {columns : List Nat} {workspace after : Workspace} {samples : List UInt8}
    (rendered : code.renderRow width columns workspace = .ok (samples, after)) :
    ∀ sample ∈ samples, 1 ≤ sample.toNat := by
  induction columns generalizing workspace samples after with
  | nil =>
      obtain ⟨rfl, rfl⟩ := Prod.mk.inj (Except.ok.inj rendered)
      simp
  | cons x columns inductionHypothesis =>
      obtain ⟨⟨value, between⟩, -, rest⟩ := bind_eq_ok_iff.mp rendered
      obtain ⟨⟨others, last⟩, renderedRest, joined⟩ := bind_eq_ok_iff.mp rest
      obtain ⟨rfl, rfl⟩ := Prod.mk.inj (Except.ok.inj joined)
      exact List.forall_mem_cons.mpr ⟨one_le_sample value, inductionHypothesis renderedRest⟩

private theorem one_le_of_renderRows {rows : List Nat} {workspace after : Workspace} {samples : List UInt8}
    (rendered : code.renderRows width height rows workspace = .ok (samples, after)) :
    ∀ sample ∈ samples, 1 ≤ sample.toNat := by
  induction rows generalizing workspace samples after with
  | nil =>
      obtain ⟨rfl, rfl⟩ := Prod.mk.inj (Except.ok.inj rendered)
      simp
  | cons y rows inductionHypothesis =>
      obtain ⟨⟨first, between⟩, renderedFirst, rest⟩ := bind_eq_ok_iff.mp rendered
      obtain ⟨⟨others, last⟩, renderedRest, joined⟩ := bind_eq_ok_iff.mp rest
      obtain ⟨rfl, rfl⟩ := Prod.mk.inj (Except.ok.inj joined)
      exact List.forall_mem_append.mpr ⟨one_le_of_renderRow renderedFirst, inductionHypothesis renderedRest⟩

/-- No sample of a rendering is zero, whatever the program is. -/
theorem one_le_of_render {program : Program} {registers : Int} {samples : List UInt8}
    (rendered : program.render registers width height = .ok samples) : ∀ sample ∈ samples, 1 ≤ sample.toNat := by
  obtain ⟨machine, -, rest⟩ := bind_eq_ok_iff.mp rendered
  unfold Machine.render at rest
  split at rest
  · obtain ⟨⟨drawn, after⟩, renderedRows, last⟩ := bind_eq_ok_iff.mp (mapError_eq_ok_iff.mp rest)
    obtain rfl := Except.ok.inj last
    exact one_le_of_renderRows renderedRows
  · cases rest

theorem one_le_of_renderAlike {goal generated : GrayImage} {program : Program}
    (rendered : goal.renderAlike program = .ok generated) :
    goal.width = generated.width ∧ goal.height = generated.height ∧
      ∀ sample ∈ generated.samples.toList, 1 ≤ sample.toNat := by
  obtain ⟨samples, renderedSamples, built⟩ := bind_eq_ok_iff.mp rendered
  obtain ⟨width, height, rfl⟩ := GrayImage.samples_of_ofSamples (mapError_eq_ok_iff.mp built)
  exact ⟨width, height, one_le_of_render (mapError_eq_ok_iff.mp renderedSamples)⟩

end Rendered

end EvoRaster
