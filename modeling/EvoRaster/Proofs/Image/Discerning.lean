import Mathlib
import EvoRaster.Proofs.Image.Exact
import EvoRaster.Proofs.Outcome.Except

/-!
Contract: the differences tell images apart and rank them by their distances.

Owns:
- `Closer` and `Discerning`: what it means that every pixel is at least as near to the goal, and the laws of an error
  that agrees with this order;
- `Plane.exactError_le` and `Plane.exactError_lt`, by which the exact perceptual error grows with every distance;
- `squaredDifference_wraps` and `squaredDifference_exact`, for the sum of 64-bit integers;
- `differences_discern_images`: which images are refused, and that both errors are discerning.
-/

namespace EvoRaster

/-! ## Laws of errors -/

section Laws

variable {width height : Nat}

/-- No sample of the nearer plane is further from the goal. -/
def Closer (goal near far : Plane UInt8 width height) : Prop :=
  ∀ pixel, sampleDistance (goal.sampleAt pixel) (near.sampleAt pixel) ≤
    sampleDistance (goal.sampleAt pixel) (far.sampleAt pixel)

/-- Some sample of the nearer plane is nearer to the goal. -/
def SomewhereCloser (goal near far : Plane UInt8 width height) : Prop :=
  ∃ pixel, sampleDistance (goal.sampleAt pixel) (near.sampleAt pixel) <
    sampleDistance (goal.sampleAt pixel) (far.sampleAt pixel)

/-- The laws of an error that ranks planes by their distances from the goal. -/
structure Discerning {κ : Type} [Zero κ] [Preorder κ]
    (error : Plane UInt8 width height → Plane UInt8 width height → κ) : Prop where
  symmetric : ∀ goal generated, error goal generated = error generated goal
  nonneg : ∀ goal generated, 0 ≤ error goal generated
  zero_iff : ∀ goal generated, error goal generated = 0 ↔ goal = generated
  mono : ∀ goal near far, Closer goal near far → error goal near ≤ error goal far
  strict : ∀ goal near far, Closer goal near far → SomewhereCloser goal near far → error goal near < error goal far

theorem sampleDistance_self (sample : UInt8) : sampleDistance sample sample = 0 := by
  simp [sampleDistance]

theorem sampleDistance_comm (left right : UInt8) : sampleDistance left right = sampleDistance right left :=
  Nat.add_comm _ _

theorem sampleDistance_pos {left right : UInt8} (differ : left ≠ right) : 0 < sampleDistance left right := by
  have numbers : left.toNat ≠ right.toNat := fun same => differ (UInt8.toNat_inj.mp same)
  unfold sampleDistance
  omega

/-- An error that grows with the distances, and that a plane does not have against itself, is discerning. -/
theorem Discerning.of_growing {κ : Type} [Zero κ] [PartialOrder κ]
    {error : Plane UInt8 width height → Plane UInt8 width height → κ}
    (symmetric : ∀ goal generated, error goal generated = error generated goal)
    (same : ∀ goal, error goal goal = 0)
    (mono : ∀ goal near far, Closer goal near far → error goal near ≤ error goal far)
    (strict : ∀ goal near far, Closer goal near far → SomewhereCloser goal near far →
      error goal near < error goal far) : Discerning error where
  symmetric := symmetric
  mono := mono
  strict := strict
  nonneg := by
    intro goal generated
    rw [← same goal]
    exact mono goal goal generated fun pixel => by simp [sampleDistance_self]
  zero_iff := by
    intro goal generated
    constructor
    · intro zero
      by_contra differ
      have somewhere : ∃ pixel, goal.sampleAt pixel ≠ generated.sampleAt pixel := by
        by_contra nowhere
        exact differ (Plane.ext_sampleAt fun pixel => not_not.mp fun apart => nowhere ⟨pixel, apart⟩)
      obtain ⟨pixel, apart⟩ := somewhere
      have less := strict goal goal generated (fun pixel => by simp [sampleDistance_self])
        ⟨pixel, by simpa [sampleDistance_self] using sampleDistance_pos apart⟩
      rw [same, zero] at less
      exact lt_irrefl _ less
    · rintro rfl
      exact same goal

end Laws

/-! ## The perceptual error -/

namespace Plane

variable {width height : Nat} {plane larger : Plane ℚ width height}

theorem ringMean_le (le : ∀ pixel, plane.sampleAt pixel ≤ larger.sampleAt pixel) (center : Pixel width height)
    (distance : Nat) : plane.ringMean center distance ≤ larger.ringMean center distance := by
  unfold ringMean
  gcongr with pixel
  exact le pixel

variable {weights : List ℚ} {reach : Nat} {enough : reach < weights.length}
variable (positive : ∀ weight ∈ weights, 0 < weight) (le : ∀ pixel, plane.sampleAt pixel ≤ larger.sampleAt pixel)
include positive

theorem weighted_cube_le {weight small large : ℚ} (member : weight ∈ weights) (ordered : small ≤ large) :
    (weight * small) ^ 3 ≤ (weight * large) ^ 3 :=
  (Odd.pow_le_pow (by decide)).mpr (mul_le_mul_of_nonneg_left ordered (positive weight member).le)

private theorem weighted_cube_lt {weight small large : ℚ} (member : weight ∈ weights) (ordered : small < large) :
    (weight * small) ^ 3 < (weight * large) ^ 3 :=
  (Odd.pow_lt_pow (by decide)).mpr (mul_lt_mul_of_pos_left ordered (positive weight member))

include le

theorem exactPixelError_le (center : Pixel width height) :
    plane.exactPixelError weights reach enough center ≤ larger.exactPixelError weights reach enough center := by
  refine add_le_add ?_ (Finset.sum_le_sum fun ring _ => ?_)
  · exact weighted_cube_le positive (List.getElem_mem _) (le center)
  · exact weighted_cube_le positive (List.getElem_mem _) (ringMean_le le center _)

/-- The own sample of a pixel counts, whatever the rings around it add. -/
private theorem exactPixelError_lt {center : Pixel width height}
    (less : plane.sampleAt center < larger.sampleAt center) :
    plane.exactPixelError weights reach enough center < larger.exactPixelError weights reach enough center := by
  refine add_lt_add_of_lt_of_le ?_ (Finset.sum_le_sum fun ring _ => ?_)
  · exact weighted_cube_lt positive (List.getElem_mem _) less
  · exact weighted_cube_le positive (List.getElem_mem _) (ringMean_le le center _)

theorem exactError_le :
    plane.exactError weights reach enough ≤ larger.exactError weights reach enough :=
  Finset.sum_le_sum fun center _ => exactPixelError_le positive le center

theorem exactError_lt (less : ∃ pixel, plane.sampleAt pixel < larger.sampleAt pixel) :
    plane.exactError weights reach enough < larger.exactError weights reach enough := by
  obtain ⟨center, less⟩ := less
  exact Finset.sum_lt_sum (fun center _ => exactPixelError_le positive le center)
    ⟨center, Finset.mem_univ _, exactPixelError_lt positive le less⟩

omit positive le

private theorem exactError_of_zero (zero : ∀ pixel, plane.sampleAt pixel = 0) :
    plane.exactError weights reach enough = 0 := by
  simp [exactError, exactPixelError, ringMean, zero]

end Plane

section Errors

variable {width height : Nat}

theorem discerning_perceptualError :
    Discerning (perceptualError : Plane UInt8 width height → Plane UInt8 width height → ℚ) := by
  have positive : ∀ weight ∈ [(7 / 16 : ℚ), 5 / 16, 3 / 16, 1 / 16], 0 < weight := by
    norm_num
  apply Discerning.of_growing
  · intro goal generated
    have same : gaps goal generated = gaps generated goal :=
      Plane.ext_sampleAt fun pixel => by rw [sampleAt_gaps, sampleAt_gaps, sampleDistance_comm]
    rw [perceptualError, same, perceptualError]
  · intro goal
    exact Plane.exactError_of_zero fun pixel => by rw [sampleAt_gaps, sampleDistance_self, Nat.cast_zero]
  · intro goal near far closer
    refine Plane.exactError_le positive fun pixel => ?_
    rw [sampleAt_gaps, sampleAt_gaps]
    exact_mod_cast closer pixel
  · rintro goal near far closer ⟨pixel, less⟩
    refine Plane.exactError_lt positive (fun pixel => ?_) ⟨pixel, ?_⟩
    · rw [sampleAt_gaps, sampleAt_gaps]
      exact_mod_cast closer pixel
    · rw [sampleAt_gaps, sampleAt_gaps]
      exact_mod_cast less

/-! ## The squared error -/

/-- The sum of the squares of the differences of all samples, without a bound. -/
def squaredError (goal generated : Plane UInt8 width height) : ℤ :=
  ∑ pixel, ((goal.sampleAt pixel).toNat - (generated.sampleAt pixel).toNat : ℤ) ^ 2

theorem squaredError_eq (goal generated : Plane UInt8 width height) :
    squaredError goal generated =
      ∑ pixel, (sampleDistance (goal.sampleAt pixel) (generated.sampleAt pixel) : ℤ) ^ 2 := by
  refine Finset.sum_congr rfl fun pixel _ => ?_
  have either : ((goal.sampleAt pixel).toNat - (generated.sampleAt pixel).toNat : ℤ) =
        sampleDistance (goal.sampleAt pixel) (generated.sampleAt pixel) ∨
      ((goal.sampleAt pixel).toNat - (generated.sampleAt pixel).toNat : ℤ) =
        -sampleDistance (goal.sampleAt pixel) (generated.sampleAt pixel) := by
    unfold sampleDistance
    omega
  rcases either with same | same
  · rw [same]
  · rw [same, neg_sq]

theorem discerning_squaredError :
    Discerning (squaredError : Plane UInt8 width height → Plane UInt8 width height → ℤ) := by
  have squares {small large : ℕ} (le : small ≤ large) : (small : ℤ) ^ 2 ≤ (large : ℤ) ^ 2 := by
    gcongr
  apply Discerning.of_growing
  · intro goal generated
    simp only [squaredError_eq, sampleDistance_comm]
  · intro goal
    simp [squaredError]
  · intro goal near far closer
    rw [squaredError_eq, squaredError_eq]
    exact Finset.sum_le_sum fun pixel _ => squares (closer pixel)
  · rintro goal near far closer ⟨pixel, less⟩
    rw [squaredError_eq, squaredError_eq]
    refine Finset.sum_lt_sum (fun pixel _ => squares (closer pixel)) ⟨pixel, Finset.mem_univ _, ?_⟩
    gcongr

private theorem squaredDistance_eq (left right : UInt8) :
    squaredDistance left right = Int64.ofInt ((left.toNat - right.toNat : ℤ) ^ 2) := by
  rw [pow_two, Int64.ofInt_mul, Int64.ofInt_sub, Int64.ofInt_eq_ofNat, Int64.ofInt_eq_ofNat]
  rfl

private theorem foldl_squaredDistance (start : ℤ) (pairs : List (UInt8 × UInt8)) :
    pairs.foldl (fun total pair => total + squaredDistance pair.1 pair.2) (Int64.ofInt start) =
      Int64.ofInt (start + (pairs.map fun pair => (pair.1.toNat - pair.2.toNat : ℤ) ^ 2).sum) := by
  induction pairs generalizing start with
  | nil => simp
  | cons pair rest inductionHypothesis =>
      rw [List.foldl_cons, squaredDistance_eq, ← Int64.ofInt_add, inductionHypothesis, List.map_cons, List.sum_cons,
        add_assoc]

/-- The samples of both images in their order give the same sum. -/
theorem squaredError_eq_sum (goal generated : Plane UInt8 width height) :
    squaredError goal generated =
      ((goal.toList.zip generated.toList).map fun pair => (pair.1.toNat - pair.2.toNat : ℤ) ^ 2).sum := by
  rw [Plane.toList_eq, Plane.toList_eq, List.zip_map', List.map_map, squaredError, ← Pixel.toFinset_inOrder,
    List.sum_toFinset _ (Pixel.nodup_inOrder width height)]
  rfl

/-- The squared difference of two images of one size is the squared error, modulo the 64 bits of the sum. -/
theorem squaredDifference_wraps (goal generated : Plane UInt8 width height) :
    GrayImage.squaredDifference ⟨width, height, goal⟩ ⟨width, height, generated⟩ =
      .ok (Int64.ofInt (squaredError goal generated)).toInt := by
  have total := foldl_squaredDistance 0 (goal.toList.zip generated.toList)
  rw [zero_add, ← squaredError_eq_sum] at total
  have same : GrayImage.checkSameSize ⟨width, height, goal⟩ ⟨width, height, generated⟩ = .ok () :=
    GrayImage.checkSameSize_of_same ⟨rfl, rfl⟩
  rw [GrayImage.squaredDifference, same, ok_bind]
  exact congrArg (fun sum : Int64 => Except.ok sum.toInt) total

/-- No pixel adds more than the square of 255. -/
theorem squaredError_le (goal generated : Plane UInt8 width height) :
    squaredError goal generated ≤ (width * height : ℕ) * 65025 := by
  rw [squaredError_eq]
  have each : ∀ pixel ∈ Finset.univ,
      (sampleDistance (goal.sampleAt pixel) (generated.sampleAt pixel) : ℤ) ^ 2 ≤ 65025 := by
    intro pixel _
    have upper := (goal.sampleAt pixel).toNat_lt
    have upper' := (generated.sampleAt pixel).toNat_lt
    have short : sampleDistance (goal.sampleAt pixel) (generated.sampleAt pixel) ≤ 255 := by
      unfold sampleDistance
      omega
    have square := Nat.pow_le_pow_left short 2
    exact_mod_cast square
  have all := Finset.sum_le_card_nsmul _ _ _ each
  rwa [Finset.card_univ, Fintype.card_prod, Fintype.card_fin, Fintype.card_fin, nsmul_eq_mul] at all

/-- The sum of an image that is not too large stays within 64 bits. -/
theorem squaredDifference_exact (few : width * height ≤ (2 ^ 63 - 1) / 65025)
    (goal generated : Plane UInt8 width height) :
    GrayImage.squaredDifference ⟨width, height, goal⟩ ⟨width, height, generated⟩ =
      .ok (squaredError goal generated) := by
  have most := squaredError_le goal generated
  have least := discerning_squaredError.nonneg goal generated
  rw [squaredDifference_wraps, Int64.toInt_ofInt_of_le (by omega) (by omega)]

end Errors

/-! ## Images -/

/-- Images of different sizes are refused, and no others. -/
def RefusesSizes {κ : Type} (difference : GrayImage → GrayImage → Except ImageError κ) : Prop :=
  ∀ goal generated : GrayImage,
    if goal.width = generated.width ∧ goal.height = generated.height then
      ∃ error, difference goal generated = .ok error
    else
      difference goal generated =
        .error (.sizeMismatch goal.width goal.height generated.width generated.height)

private theorem refusesSizes_perceptualDifferenceIn {α : Type} (arithmetic : Arithmetic α) :
    RefusesSizes (GrayImage.perceptualDifferenceIn arithmetic) := by
  intro goal generated
  split
  · rename_i same
    exact ⟨_, by rw [GrayImage.perceptualDifferenceIn, dif_pos same]; rfl⟩
  · rename_i differ
    rw [GrayImage.perceptualDifferenceIn, dif_neg differ]
    rfl

private theorem refusesSizes_squaredDifference : RefusesSizes GrayImage.squaredDifference := by
  intro goal generated
  split
  · rename_i same
    exact ⟨_, by rw [GrayImage.squaredDifference, GrayImage.checkSameSize_of_same same]; rfl⟩
  · rename_i differ
    rw [GrayImage.squaredDifference, GrayImage.checkSameSize_of_differ differ]
    rfl

/-- Both differences refuse images of different sizes and no others. For images of one size both errors, computed
exactly, are discerning: they are symmetric, never negative and zero for equal images only, and they grow with the
distances. The squared difference sums 64-bit integers. It is the exact error modulo their range, and the exact error
itself for images that are not too large. -/
theorem differences_discern_images :
    RefusesSizes GrayImage.squaredDifference ∧
      (∀ {α : Type} (arithmetic : Arithmetic α), RefusesSizes (GrayImage.perceptualDifferenceIn arithmetic)) ∧
      ∀ width height : Nat,
        Discerning (perceptualError : Plane UInt8 width height → Plane UInt8 width height → ℚ) ∧
          Discerning (squaredError : Plane UInt8 width height → Plane UInt8 width height → ℤ) ∧
          ∀ goal generated : Plane UInt8 width height,
            GrayImage.perceptualDifferenceIn Arithmetic.rational ⟨width, height, goal⟩ ⟨width, height, generated⟩ =
                .ok (perceptualError goal generated) ∧
              GrayImage.squaredDifference ⟨width, height, goal⟩ ⟨width, height, generated⟩ =
                .ok (Int64.ofInt (squaredError goal generated)).toInt ∧
              (width * height ≤ (2 ^ 63 - 1) / 65025 →
                GrayImage.squaredDifference ⟨width, height, goal⟩ ⟨width, height, generated⟩ =
                  .ok (squaredError goal generated)) := by
  refine ⟨refusesSizes_squaredDifference, refusesSizes_perceptualDifferenceIn, fun width height => ?_⟩
  refine ⟨discerning_perceptualError, discerning_squaredError, fun goal generated => ?_⟩
  exact ⟨perceptualDifferenceIn_rational goal generated, squaredDifference_wraps goal generated,
    fun few => squaredDifference_exact few goal generated⟩

/-- Two pixels, of which the nearer image hits one and has the other as far away as the other image. Two images with
six pixels each are not of one size. -/
theorem differences_discern_images_of_two_pixels :
    let goal : Plane UInt8 2 1 := #v[0, 255]
    let near : Plane UInt8 2 1 := #v[0, 0]
    let far : Plane UInt8 2 1 := #v[10, 0]
    (GrayImage.black 2 3).squaredDifference (GrayImage.black 3 2) = .error (.sizeMismatch 2 3 3 2) ∧
      2 * 1 ≤ (2 ^ 63 - 1) / 65025 ∧ Closer goal near far ∧ SomewhereCloser goal near far ∧
      GrayImage.squaredDifference ⟨2, 1, goal⟩ ⟨2, 1, far⟩ = .ok (10 * 10 + 255 * 255) ∧
      squaredError goal near < squaredError goal far ∧ perceptualError goal near < perceptualError goal far := by
  intro goal near far
  have closer : Closer goal near far := by
    unfold Closer
    decide
  have somewhere : SomewhereCloser goal near far := by
    unfold SomewhereCloser
    decide
  obtain ⟨refuses, -, laws⟩ := differences_discern_images
  obtain ⟨perceptual, squared, answers⟩ := laws 2 1
  have few : 2 * 1 ≤ (2 ^ 63 - 1) / 65025 := by decide
  have sum : squaredError goal far = 10 * 10 + 255 * 255 := by decide
  refine ⟨refuses (GrayImage.black 2 3) (GrayImage.black 3 2), few, closer, somewhere, ?_,
    squared.strict _ _ _ closer somewhere, perceptual.strict _ _ _ closer somewhere⟩
  rw [(answers goal far).2.2 few, sum]

end EvoRaster
