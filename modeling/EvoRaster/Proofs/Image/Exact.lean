import EvoRaster.Proofs.Image.Rings
import Mathlib.Algebra.BigOperators.Fin
import Mathlib.Data.Rat.Cast.Defs
import Mathlib.Tactic.NormNum

/-!
Contract: the perceptual difference without rounding.

Owns:
- `Arithmetic.rational`, exact arithmetic;
- `Plane.exactError`, the sum over all pixels of the cubes of the weighted sample and of the weighted means around it;
- `perceptualError`, the exact error of two planes of bytes;
- `perceptualDifferenceIn_rational`: the perceptual difference computes it for two images of one size.

Here the order of the additions is gone, and a ring without members counts with a mean of zero.
-/

namespace EvoRaster

/-- Arithmetic without rounding. -/
def Arithmetic.rational : Arithmetic ℚ where
  zero := 0
  add := (· + ·)
  mul := (· * ·)
  div := (· / ·)
  ofNat := fun count => count

/-! ## Sums -/

theorem rational_foldl_add (start : ℚ) (numbers : List ℚ) :
    numbers.foldl Arithmetic.rational.add start = start + numbers.sum := by
  induction numbers generalizing start with
  | nil => simp
  | cons number rest inductionHypothesis =>
      rw [List.foldl_cons, inductionHypothesis, List.sum_cons, ← add_assoc]
      rfl

theorem rational_sum (numbers : List ℚ) : Arithmetic.rational.sum numbers = numbers.sum := by
  rw [Arithmetic.sum, rational_foldl_add]
  exact zero_add _

theorem rational_cube (number : ℚ) : Arithmetic.rational.cube number = number ^ 3 := by
  rw [pow_succ, pow_two]
  rfl

namespace Pixel

variable {width height : Nat}

theorem nodup_inOrder (width height : Nat) : (inOrder width height).Nodup := by
  apply List.Nodup.of_map place
  rw [map_place_inOrder]
  exact List.nodup_range

theorem toFinset_inOrder : (inOrder width height).toFinset = Finset.univ := by
  ext pixel
  simp [mem_inOrder]

private theorem nodup_ring (center : Pixel width height) (distance : Nat) : (center.ring distance).Nodup :=
  (nodup_inOrder width height).filter _

private theorem toFinset_ring (center : Pixel width height) (distance : Nat) :
    (center.ring distance).toFinset = Finset.univ.filter fun pixel => center.steps pixel = distance := by
  ext pixel
  simp [mem_ring]

end Pixel

namespace Plane

variable {width height : Nat}

/-! ## Errors of pixels -/

/-- The mean of the samples at a distance, and zero if there are none. -/
def ringMean (plane : Plane ℚ width height) (center : Pixel width height) (distance : Nat) : ℚ :=
  (∑ pixel with center.steps pixel = distance, plane.sampleAt pixel) /
    Finset.card {pixel | center.steps pixel = distance}

def exactPixelError (plane : Plane ℚ width height) (weights : List ℚ) (reach : Nat)
    (enough : reach < weights.length) (center : Pixel width height) : ℚ :=
  (weights[0] * plane.sampleAt center) ^ 3 +
    ∑ ring : Fin reach, (weights[ring.val + 1] * plane.ringMean center (ring + 1)) ^ 3

/-- The sum of the errors of all pixels. -/
def exactError (plane : Plane ℚ width height) (weights : List ℚ) (reach : Nat)
    (enough : reach < weights.length) : ℚ :=
  ∑ center, plane.exactPixelError weights reach enough center

section

variable (plane : Plane ℚ width height) (center : Pixel width height)

private theorem mean_ring (distance : Nat) :
    Arithmetic.rational.mean ((center.ring distance).map plane.sampleAt) = plane.ringMean center distance := by
  rw [ringMean, ← Pixel.toFinset_ring, List.sum_toFinset _ (center.nodup_ring distance),
    List.toFinset_card_of_nodup (center.nodup_ring distance), Arithmetic.mean, rational_sum, List.length_map]
  rfl

private theorem sum_ringTerms (weight : ℚ) (distance : Nat) :
    (plane.ringTerms Arithmetic.rational center weight distance).sum =
      (weight * plane.ringMean center distance) ^ 3 := by
  rw [← mean_ring, ringTerms]
  cases (center.ring distance).map plane.sampleAt with
  | nil => simp [Arithmetic.mean, Arithmetic.sum, Arithmetic.rational]
  | cons sample rest =>
      rw [List.sum_singleton, rational_cube]
      rfl

private theorem ringwisePixelError_rational (weights : List ℚ) (reach : Nat) (enough : reach < weights.length) :
    plane.ringwisePixelError Arithmetic.rational center weights reach enough =
      plane.exactPixelError weights reach enough center := by
  rw [ringwisePixelError, rational_foldl_add, rational_cube, exactPixelError, Fin.sum_univ_def, List.flatMap_def,
    List.sum_flatten, List.map_map]
  simp only [Function.comp_def, sum_ringTerms]
  rfl

theorem totalError_rational (weights : List ℚ) (reach : Nat) (enough : reach < weights.length) :
    plane.totalError Arithmetic.rational (.upTo weights reach enough) =
      plane.exactError weights reach enough := by
  rw [totalError_eq, ringwiseError, rational_sum, exactError, ← Pixel.toFinset_inOrder,
    List.sum_toFinset _ (Pixel.nodup_inOrder width height)]
  simp only [ringwisePixelError_rational]

end

end Plane

/-! ## Images -/

section Images

variable {width height : Nat}

/-- How far the samples of two planes are apart, place by place. -/
def gaps (goal generated : Plane UInt8 width height) : Plane ℚ width height :=
  Vector.ofFn fun position => (sampleDistance goal[position] generated[position] : ℚ)

theorem sampleAt_gaps (goal generated : Plane UInt8 width height) (pixel : Pixel width height) :
    (gaps goal generated).sampleAt pixel =
      sampleDistance (goal.sampleAt pixel) (generated.sampleAt pixel) := by
  simp [gaps, Plane.sampleAt, Plane.pixel]

/-- The perceptual error of two planes of one size, without rounding. -/
def perceptualError (goal generated : Plane UInt8 width height) : ℚ :=
  (gaps goal generated).exactError [7 / 16, 5 / 16, 3 / 16, 1 / 16] 3 (by decide)

private theorem sixteenths_rational :
    RingWeights.sixteenths Arithmetic.rational = .upTo [7 / 16, 5 / 16, 3 / 16, 1 / 16] 3 (by decide) := by
  rfl

theorem perceptualDifferenceIn_rational (goal generated : Plane UInt8 width height) :
    GrayImage.perceptualDifferenceIn Arithmetic.rational ⟨width, height, goal⟩ ⟨width, height, generated⟩ =
      .ok (perceptualError goal generated) := by
  rw [GrayImage.perceptualDifferenceIn, dif_pos ⟨rfl, rfl⟩, sixteenths_rational, Plane.totalError_rational]
  rfl

end Images

end EvoRaster
