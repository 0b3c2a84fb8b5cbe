import EvoRaster.Proofs.Image.Discerning
import EvoRaster.Proofs.Image.Finite
import EvoRaster.Proofs.Machine.Pixels
import EvoRaster.Proofs.Machine.Shades

/-!
Contract: goals that no program reaches.

Owns:
- `own_represents`, by which doubles compute what a pixel itself contributes to the error exactly;
- `Plane.le_totalError`, by which the error of an image is not less than that of any of its pixels;
- `squaredError_of_black`, which compares the exact sum of squares with the error that is computed;
- `samples_never_black`: values are clamped and shaded to samples between 1 and 255, and so no program has no error
  against a goal with a sample that is zero;
- `squaredError_wraps_to_zero`, the goal that shows why the squared error needs a bound for this.

The sum of squares is kept in 64 bits, and only an image of more than a hundred million million pixels can lead it
out of their range.
-/

namespace EvoRaster

open Numeric

/-! ## The error of a pixel -/

/-- The cube of the own weight and a distance has few enough digits for a double, and so have all numbers on the way. -/
theorem own_represents {distance : Nat} (byte : distance < 256) :
    Represents
      (Arithmetic.double.cube (Arithmetic.double.mul (RingWeights.sixteenths Arithmetic.double).own
        (Arithmetic.double.ofNat distance)))
      ((7 / 16 * distance) * (7 / 16 * distance) * (7 / 16 * distance)) := by
  have power (exponent : Nat) : distance ^ exponent ≤ 255 ^ exponent := Nat.pow_le_pow_left (by omega) _
  have seven := represents_natCast (show 7 < 2 ^ 53 by decide)
  have sixteen := represents_natCast (show 16 < 2 ^ 53 by decide)
  have sample := represents_natCast (show distance < 2 ^ 53 by omega)
  push_cast at seven sixteen
  have weight : Represents (RingWeights.sixteenths Arithmetic.double).own (7 / 16) :=
    seven.div_exact sixteen (by norm_num)
      (Short.of_units (show (7 / 16 : ℝ) = (7 : ℕ) * 2 ^ (-4 : ℤ) by norm_num) (by decide) (by decide) (by decide))
  have weighted := weight.mul_exact sample
    (Short.of_units (show _ = ((7 * distance : ℕ) : ℝ) * 2 ^ (-4 : ℤ) by push_cast; norm_num; ring) (by omega)
      (by decide) (by decide))
  have squared := weighted.mul_exact weighted
    (Short.of_units (show _ = ((49 * distance ^ 2 : ℕ) : ℝ) * 2 ^ (-8 : ℤ) by push_cast; norm_num; ring)
      (by have := power 2; omega) (by decide) (by decide))
  exact squared.mul_exact weighted
    (Short.of_units (show _ = ((343 * distance ^ 3 : ℕ) : ℝ) * 2 ^ (-12 : ℤ) by push_cast; norm_num; ring)
      (by have := power 3; omega) (by decide) (by decide))

/-! ## The error of an image -/

/-- Terms that are much smaller than the bound never lead beyond it, so the sum is not less than any of them. -/
private theorem le_foldl_add {terms : List Float} (small : ∀ term ∈ terms, Bounded 198 term) {start : Float}
    (bounded : Bounded 252 start) :
    start ≤ terms.foldl (· + ·) start ∧ ∀ term ∈ terms, term ≤ terms.foldl (· + ·) start := by
  induction terms generalizing start with
  | nil => exact ⟨Double.le_refl bounded.isNumber, by simp⟩
  | cons first rest inductionHypothesis =>
      obtain ⟨tiny, others⟩ := List.forall_mem_cons.mp small
      obtain ⟨grown, reached⟩ := bounded.le_add tiny (by decide) (by decide)
      obtain ⟨later, members⟩ := inductionHypothesis others (bounded.absorb tiny (by decide) (by decide))
      exact ⟨Double.le_trans grown later, List.forall_mem_cons.mpr ⟨Double.le_trans reached later, members⟩⟩

section Planes

variable {width height : Nat}

/-- The error of an image is not less than the error of a pixel. -/
theorem Plane.le_totalError {plane : Plane Float width height} (small : plane.Small) (x : Fin width) (y : Fin height) :
    plane.pixelError Arithmetic.double (RingWeights.sixteenths Arithmetic.double) x y ≤
      plane.totalError Arithmetic.double (RingWeights.sixteenths Arithmetic.double) := by
  rw [Plane.totalError_eq_sum]
  refine (le_foldl_add ?_ (bounded_zero 252 (by decide))).2 _
    (List.mem_map.mpr ⟨(x, y), Pixel.mem_inOrder (x, y), rfl⟩)
  intro term member
  obtain ⟨pixel, -, rfl⟩ := List.mem_map.mp member
  exact bounded_pixelError small pixel.1 pixel.2

/-- An image with a distance has an error. -/
theorem Plane.totalError_pos {plane : Plane Float width height} (small : plane.Small) {x : Fin width}
    {y : Fin height} {distance : Nat} (apart : plane.pixel x y = Arithmetic.double.ofNat distance)
    (positive : 0 < distance) (byte : distance < 256) :
    0 < plane.totalError Arithmetic.double (RingWeights.sixteenths Arithmetic.double) := by
  have own := (pixelError_ensures small x y).2
  rw [apart] at own
  have some' : 0 < Arithmetic.double.cube (Arithmetic.double.mul (RingWeights.sixteenths Arithmetic.double).own
      (Arithmetic.double.ofNat distance)) := by
    rw [Double.represents_zero.lt_iff (own_represents byte)]
    positivity
  exact Double.lt_of_lt_of_le some' (Double.le_trans own (Plane.le_totalError small x y))

variable {goal generated : Plane UInt8 width height} {pixel : Pixel width height}

private theorem sampleDistance_lt (left right : UInt8) : sampleDistance left right < 256 := by
  have below := left.toNat_lt
  have below' := right.toNat_lt
  unfold sampleDistance
  omega

theorem perceptualDifference_pos (differ : goal.sampleAt pixel ≠ generated.sampleAt pixel) {error : Float}
    (compared : GrayImage.perceptualDifference ⟨width, height, goal⟩ ⟨width, height, generated⟩ = .ok error) :
    0 < error := by
  rw [GrayImage.perceptualDifference, GrayImage.perceptualDifferenceIn, dif_pos ⟨rfl, rfl⟩] at compared
  obtain rfl := Except.ok.inj compared
  have distance : (GrayImage.distances Arithmetic.double ⟨width, height, goal⟩ ⟨width, height, generated⟩ rfl).pixel
      pixel.1 pixel.2 =
        Arithmetic.double.ofNat (sampleDistance (goal.sampleAt pixel) (generated.sampleAt pixel)) := by
    simp only [Plane.pixel, GrayImage.distances, Vector.getElem_ofFn, Fin.getElem_fin]
    rfl
  exact Plane.totalError_pos (distances_small _) distance (sampleDistance_pos differ) (sampleDistance_lt _ _)

theorem squaredError_pos (differ : goal.sampleAt pixel ≠ generated.sampleAt pixel) :
    0 < squaredError goal generated := by
  refine lt_of_le_of_ne (discerning_squaredError.nonneg goal generated) fun zero => differ ?_
  rw [(discerning_squaredError.zero_iff goal generated).mp zero.symm]

end Planes

section OfInt

variable {whole : ℤ}

theorem represents_word {count : ℕ} (below : count ≤ 2 ^ 63) :
    Represents (Float.ofNat count) (rounded .binary64 count) ∧ |rounded .binary64 count| ≤ 2 ^ 1023 := by
  have small : (count : ℝ) ≤ 2 ^ 1023 := by
    have below' : (count : ℝ) ≤ 2 ^ 63 := by exact_mod_cast below
    exact below'.trans (pow_le_pow_right₀ one_le_two (by decide))
  exact ⟨represents_ofNat small, abs_rounded_le count.cast_nonneg small⟩

theorem ofInt_pos (positive : 0 < whole) (below : whole ≤ 2 ^ 63) : 0 < Float.ofInt whole := by
  obtain ⟨count, rfl⟩ := Int.eq_ofNat_of_zero_le positive.le
  obtain ⟨counted, -⟩ := represents_word (show count ≤ 2 ^ 63 by omega)
  refine (Double.represents_zero.lt_iff counted).mpr ?_
  linarith [one_le_rounded (show 0 < count by omega)]

private theorem ofInt_neg (negative : whole < 0) (above : -2 ^ 63 ≤ whole) : Float.ofInt whole < 0 := by
  obtain ⟨count, rfl⟩ := Int.eq_negSucc_of_lt_zero negative
  obtain ⟨counted, small⟩ := represents_word (show count.succ ≤ 2 ^ 63 by omega)
  refine ((counted.neg small).lt_iff Double.represents_zero).mpr ?_
  linarith [one_le_rounded count.succ_pos]

/-- No other whole number of 64 bits becomes zero. -/
theorem ofInt_eq_zero_iff (number : Int64) : Float.ofInt number.toInt = 0 ↔ number.toInt = 0 := by
  have above := number.le_toInt
  have below := number.toInt_lt
  constructor
  · intro zero
    rcases lt_trichotomy number.toInt 0 with negative | same | positive
    · have less := ofInt_neg negative (by omega)
      rw [zero] at less
      exact absurd less (Double.lt_irrefl 0)
    · exact same
    · have less := ofInt_pos positive (by omega)
      rw [zero] at less
      exact absurd less (Double.lt_irrefl 0)
  · intro zero
    rw [zero]
    rfl

end OfInt

/-! ## Goals with a black sample -/

/-- A program's picture differs from a goal with a sample that is zero. -/
theorem exists_differing {goal generated : GrayImage} {program : Program}
    (rendered : goal.renderAlike program = .ok generated) (black : 0 ∈ goal.samples.toList) :
    ∃ (width height : Nat) (plane plane' : Plane UInt8 width height) (pixel : Pixel width height),
      goal = ⟨width, height, plane⟩ ∧ generated = ⟨width, height, plane'⟩ ∧
        plane.sampleAt pixel ≠ plane'.sampleAt pixel := by
  obtain ⟨sameWidth, sameHeight, lit⟩ := one_le_of_renderAlike rendered
  obtain ⟨width, height, goal⟩ := goal
  obtain ⟨_, _, generated⟩ := generated
  simp only at sameWidth sameHeight
  subst sameWidth sameHeight
  simp only [Plane.toList_eq, List.mem_map, forall_exists_index, and_imp, forall_apply_eq_imp_iff₂] at black lit
  obtain ⟨pixel, -, zero⟩ := black
  refine ⟨width, height, goal, generated, pixel, rfl, rfl, fun same => ?_⟩
  have one := lit pixel (Pixel.mem_inOrder pixel)
  rw [← same, zero] at one
  exact absurd one (by decide)

theorem perceptualError_pos {goal : GrayImage} {program : Program} {error : Float} (black : 0 ∈ goal.samples.toList)
    (evaluated : goal.programError .perceptual program = .ok error) : 0 < error := by
  obtain ⟨generated, rendered, compared⟩ := bind_eq_ok_iff.mp evaluated
  obtain ⟨width, height, plane, plane', pixel, rfl, rfl, differ⟩ := exists_differing rendered black
  exact perceptualDifference_pos differ (mapError_eq_ok_iff.mp compared)

/-- The squares of the differences of the samples, added up without a bound. -/
def GrayImage.squares (goal generated : GrayImage) : ℤ :=
  ((goal.samples.toList.zip generated.samples.toList).map fun pair => (pair.1.toNat - pair.2.toNat : ℤ) ^ 2).sum

/-- The sum of squares is positive. An image that is not too large has a positive error, and the error of any image is
zero only if the sum is a multiple of two to the 64. -/
theorem squaredError_of_black {goal : GrayImage} {program : Program} {error : Float}
    (black : 0 ∈ goal.samples.toList) (evaluated : goal.programError .squared program = .ok error) :
    (goal.pixels ≤ (2 ^ 63 - 1) / 65025 → 0 < error) ∧
      ∃ generated, goal.renderAlike program = .ok generated ∧ 0 < goal.squares generated ∧
        (error = 0 ↔ 2 ^ 64 ∣ goal.squares generated) := by
  obtain ⟨generated, rendered, compared⟩ := bind_eq_ok_iff.mp evaluated
  obtain ⟨width, height, plane, plane', pixel, rfl, rfl, differ⟩ := exists_differing rendered black
  have exact : GrayImage.squares ⟨width, height, plane⟩ ⟨width, height, plane'⟩ = squaredError plane plane' :=
    (squaredError_eq_sum plane plane').symm
  have positive := squaredError_pos differ
  have known := mapError_eq_ok_iff.mp compared
  rw [GrayImage.difference, squaredDifference_wraps, map_ok] at known
  obtain rfl := Except.ok.inj known
  refine ⟨fun few => ?_, ⟨width, height, plane'⟩, rendered, by rwa [exact], ?_⟩
  · have few' : width * height ≤ (2 ^ 63 - 1) / 65025 := few
    have most := squaredError_le plane plane'
    rw [Int64.toInt_ofInt_of_le (by omega) (by omega)]
    exact ofInt_pos positive (by omega)
  · rw [exact, ofInt_eq_zero_iff, Int64.toInt_ofInt]
    exact Int.dvd_iff_bmod_eq_zero.symm

/-! ## Images of one gray level -/

/-- A program with one value at all points is rendered as an image of one gray level. -/
private theorem renderAlike_uniform (goal : GrayImage) {program : Program} {value : Float32}
    (reads : program.ReadsWithin Config.registers)
    (evaluated : ∀ point : Registers, program.evaluate point = .ok value) :
    ∃ generated, goal.renderAlike program = .ok generated ∧
      (goal.width = generated.width ∧ goal.height = generated.height) ∧
      generated.samples.toList = List.replicate goal.pixels (sample value) := by
  have rendered : program.render Config.registers goal.width goal.height = .ok ((List.range goal.height).flatMap
      fun _ => (List.range goal.width).map fun _ => sample value) :=
    Program.render_of_values reads fun _ _ _ _ => evaluated _
  have uniform : ((List.range goal.height).flatMap fun _ => (List.range goal.width).map fun _ => sample value) =
      List.replicate goal.pixels (sample value) := by
    rw [List.eq_replicate_iff]
    constructor
    · simp [List.length_flatMap, GrayImage.pixels, Nat.mul_comm]
    · simp
  rw [uniform] at rendered
  have counted : (List.replicate goal.pixels (sample value)).length = goal.width * goal.height :=
    List.length_replicate
  obtain ⟨generated, made, width, height⟩ := GrayImage.ofSamples_ok counted
  refine ⟨generated, ?_, ⟨width.symm, height.symm⟩, (GrayImage.samples_of_ofSamples made).2.2⟩
  rw [GrayImage.renderAlike, rendered, mapError_ok, ok_bind, made, mapError_ok]

private theorem squares_uniform {goal generated : GrayImage} {count : Nat} {level level' : UInt8}
    (uniform : goal.samples.toList = List.replicate count level)
    (uniform' : generated.samples.toList = List.replicate count level') :
    goal.squares generated = count * (level.toNat - level'.toNat : ℤ) ^ 2 := by
  simp [GrayImage.squares, uniform, uniform', List.zip_replicate']

/-- A program that is zero everywhere is gray everywhere. Against a black image, its error is zero if the sum of
squares is a multiple of two to the 64. -/
theorem squaredError_of_gray {width height : Nat} (inhabited : width * height ≠ 0)
    (multiple : (2 : ℤ) ^ 64 ∣ (width * height : ℕ) * 16384) :
    0 ∈ (GrayImage.black width height).samples.toList ∧
      (GrayImage.black width height).programError .squared [Instr.const 0] = .ok 0 := by
  have reads : Program.ReadsWithin [Instr.const 0] Config.registers := by
    intro instr member
    obtain rfl := List.mem_singleton.mp member
    exact nofun
  have zero (point : Registers) : Program.evaluate [Instr.const 0] point = .ok 0 := rfl
  have uniform : (GrayImage.black width height).samples.toList = List.replicate (width * height) 0 :=
    Vector.toList_replicate
  have black : 0 ∈ (GrayImage.black width height).samples.toList := by
    rw [uniform, List.mem_replicate]
    exact ⟨inhabited, rfl⟩
  obtain ⟨generated, rendered, same, uniform'⟩ :=
    renderAlike_uniform (GrayImage.black width height) reads zero
  have gray : sample 0 = 128 := by decide +kernel
  have total : (GrayImage.black width height).squares generated = (width * height : ℕ) * 16384 := by
    rw [squares_uniform uniform uniform', gray]
    rfl
  obtain ⟨error, compared⟩ := GrayImage.difference_ok .squared same
  have evaluated : (GrayImage.black width height).programError .squared [Instr.const 0] = .ok error := by
    rw [GrayImage.programError, rendered, ok_bind, compared, mapError_ok]
  obtain ⟨-, generated', rendered', -, zero_iff⟩ := squaredError_of_black black evaluated
  obtain rfl := Except.ok.inj (rendered.symm.trans rendered')
  exact ⟨black, by rw [evaluated, zero_iff.mpr (by rwa [total])]⟩

/-! ## What no program reaches -/

/-- Every value is clamped and shaded to a finite number between 1 and 255, which is cut off to its sample. The
undefined value has the sample of one, and larger values have lighter samples. So the samples of a program are never
zero, and against a goal with a sample that is zero no program has no error. This is so for the perceptual error of any
image and for the squared error of an image that is not too large for its 64 bits. Beyond that the squared error is
zero only if the sum of squares is a multiple of two to the 64. -/
theorem samples_never_black (goal : GrayImage) (program : Program) :
    (∀ value : Float32, ∃ shaded : ℝ, Single.Represents (clampToUnit value * 127 + 128) shaded ∧
        1 ≤ shaded ∧ shaded ≤ 255 ∧ ((sample value).toNat : ℤ) = ⌊shaded⌋) ∧
      (∀ value : Float32, value.isNaN = true → sample value = sample 1) ∧
      (∀ left right : Float32, left ≤ right → sample left ≤ sample right) ∧
      (∀ (registers : Int) (width height : Nat) (samples : List UInt8),
        program.render registers width height = .ok samples →
          ∀ sample ∈ samples, 1 ≤ sample.toNat ∧ sample.toNat ≤ 255) ∧
      (0 ∈ goal.samples.toList → ∀ error : Float,
        (goal.programError .perceptual program = .ok error → 0 < error) ∧
          (goal.programError .squared program = .ok error →
            (goal.pixels ≤ (2 ^ 63 - 1) / 65025 → 0 < error) ∧
              ∃ generated, goal.renderAlike program = .ok generated ∧ 0 < goal.squares generated ∧
                (error = 0 ↔ 2 ^ 64 ∣ goal.squares generated))) := by
  refine ⟨fun value => ?_, fun value undefined => ?_, fun left right ordered => sample_mono ordered, ?_, ?_⟩
  · obtain ⟨size, least, most, shaded, cut, -⟩ := sample_shaded value
    obtain ⟨lower, upper⟩ := shade_bounds least most
    exact ⟨shade size, shaded, lower, upper, cut⟩
  · apply sample_of_not_isNumber
    rw [Single.IsNumber, undefined]
    decide
  · intro registers width height samples rendered sample member
    exact ⟨one_le_of_render rendered sample member, Nat.le_of_lt_succ sample.toNat_lt⟩
  · intro black error
    exact ⟨perceptualError_pos black, squaredError_of_black black⟩

/-- A value below minus one, shaded to the darkest sample, against a black pixel, and the undefined value. -/
theorem samples_never_black_of_one_pixel :
    let goal : GrayImage := { width := 1, height := 1, samples := #v[0] }
    let program : Program := [Instr.const (-5)]
    (0 / 0 : Float32).isNaN = true ∧ sample (0 / 0) = sample 1 ∧ (-5 : Float32) ≤ 3 ∧ sample (-5) ≤ sample 3 ∧
      program.render 2 1 1 = .ok [1] ∧ (∀ sample ∈ [(1 : UInt8)], 1 ≤ sample.toNat ∧ sample.toNat ≤ 255) ∧
      0 ∈ goal.samples.toList ∧
      (∃ error, goal.programError .perceptual program = .ok error ∧ 0 < error) ∧
      goal.programError .squared program = .ok 1 ∧ goal.pixels ≤ (2 ^ 63 - 1) / 65025 ∧ (0 : Float) < 1 ∧
      ∃ generated, goal.renderAlike program = .ok generated ∧ 0 < goal.squares generated := by
  intro goal program
  obtain ⟨-, undefined, ordered, rendered, compared⟩ := samples_never_black goal program
  have isNaN : (0 / 0 : Float32).isNaN = true := by decide
  have less : (-5 : Float32) ≤ 3 := by decide
  have samples : program.render 2 1 1 = .ok [1] := by decide +kernel
  have black : 0 ∈ goal.samples.toList := by decide
  have cubed : goal.programError .perceptual program = .ok (7 / 16 * (7 / 16) * (7 / 16)) := by decide +kernel
  have squared : goal.programError .squared program = .ok 1 := by decide +kernel
  have few : goal.pixels ≤ (2 ^ 63 - 1) / 65025 := by decide
  obtain ⟨positive, generated, drawn, some', -⟩ := (compared black 1).2 squared
  exact ⟨isNaN, undefined _ isNaN, less, ordered _ _ less, samples, rendered _ _ _ _ samples, black,
    ⟨_, cubed, (compared black _).1 cubed⟩, squared, few, positive few, generated, drawn, some'⟩

/-- A gray image against a black one, with a side of two to the 25 pixels. The sum of squares is two to the 64, for
which its 64 bits have no room, and the error is zero. -/
theorem squaredError_wraps_to_zero :
    0 ∈ (GrayImage.black (2 ^ 25) (2 ^ 25)).samples.toList ∧
      (GrayImage.black (2 ^ 25) (2 ^ 25)).programError .squared [Instr.const 0] = .ok 0 :=
  squaredError_of_gray (by norm_num) (by norm_num)

end EvoRaster
