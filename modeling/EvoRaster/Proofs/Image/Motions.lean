import EvoRaster.Proofs.Image.Exact
import Mathlib.Algebra.BigOperators.Group.Finset.Basic
import Mathlib.Data.Fin.Rev

/-!
Contract: the perceptual difference treats all borders, corners and axes alike.

Owns:
- `GrayImage.mirrorColumns`, `GrayImage.mirrorRows` and `GrayImage.transpose`;
- `Pixel.Motion`, a bijection between the pixels of two sizes that keeps their distances, with the three motions that
  move the pixels of these images;
- `Plane.exactError_of_motion`: a motion maps rings onto rings, so the exact error of moved samples is the same;
- `perceptualDifference_of_moved`, for pairs of images.
-/

namespace EvoRaster

/-! ## Motions -/

/-- A bijection between the pixels of two sizes that keeps the distance of any two of them. -/
structure Pixel.Motion (width height width' height' : Nat) extends Pixel width height ≃ Pixel width' height' where
  steps_eq : ∀ first second, (toFun first).steps (toFun second) = first.steps second

namespace Pixel.Motion

variable {width height : Nat}

/-- Counting from the other end keeps distances. -/
theorem natAbs_rev_sub_rev {size : Nat} (first second : Fin size) :
    ((second.rev : Int) - first.rev).natAbs = ((second : Int) - first).natAbs := by
  rw [Fin.val_rev, Fin.val_rev]
  omega

/-- The first column becomes the last one. -/
def mirrorColumns : Motion width height width height where
  toEquiv := Equiv.prodCongr Fin.revPerm (Equiv.refl _)
  steps_eq := fun first second => congrArg (max · _) (natAbs_rev_sub_rev first.1 second.1)

/-- The first row becomes the last one. -/
def mirrorRows : Motion width height width height where
  toEquiv := Equiv.prodCongr (Equiv.refl _) Fin.revPerm
  steps_eq := fun first second => congrArg (max _ ·) (natAbs_rev_sub_rev first.2 second.2)

/-- Columns become rows. -/
def transpose : Motion width height height width where
  toEquiv := Equiv.prodComm _ _
  steps_eq := fun _ _ => Nat.max_comm _ _

end Pixel.Motion

namespace Plane

variable {width height width' height' : Nat} {plane : Plane ℚ width height} {moved : Plane ℚ width' height'}
variable (motion : Pixel.Motion width' height' width height)

private theorem ringMean_of_motion (same : ∀ pixel, moved.sampleAt pixel = plane.sampleAt (motion.toEquiv pixel))
    (center : Pixel width' height') (distance : Nat) :
    moved.ringMean center distance = plane.ringMean (motion.toEquiv center) distance := by
  have members (pixel : Pixel width' height') :
      pixel ∈ Finset.univ.filter (fun pixel => center.steps pixel = distance) ↔
        motion.toEquiv pixel ∈ Finset.univ.filter fun pixel => (motion.toEquiv center).steps pixel = distance := by
    have kept := motion.steps_eq center pixel
    simp only [Finset.mem_filter, Finset.mem_univ, true_and]
    rw [← kept]
    rfl
  rw [ringMean, ringMean, Finset.sum_equiv motion.toEquiv members fun pixel _ => same pixel,
    Finset.card_equiv motion.toEquiv members]

/-- A motion maps the rings around a pixel onto the rings around its image. -/
theorem exactError_of_motion (same : ∀ pixel, moved.sampleAt pixel = plane.sampleAt (motion.toEquiv pixel))
    {weights : List ℚ} {reach : Nat} (enough : reach < weights.length) :
    moved.exactError weights reach enough = plane.exactError weights reach enough := by
  rw [exactError, exactError, ← Equiv.sum_comp motion.toEquiv]
  refine Finset.sum_congr rfl fun center _ => ?_
  simp only [exactPixelError, same, ringMean_of_motion motion same]

end Plane

/-! ## Moved images -/

namespace GrayImage

/-- Left and right exchanged. -/
def mirrorColumns (image : GrayImage) : GrayImage :=
  ofPixels image.width image.height fun x y => image.pixel x.rev y

/-- Top and bottom exchanged. -/
def mirrorRows (image : GrayImage) : GrayImage :=
  ofPixels image.width image.height fun x y => image.pixel x y.rev

/-- Columns and rows exchanged. -/
def transpose (image : GrayImage) : GrayImage :=
  ofPixels image.height image.width fun x y => image.pixel y x

end GrayImage

section Images

variable {width height width' height' : Nat}

/-- The samples that a motion brings to each pixel. -/
def moveSamples (motion : Pixel.Motion width' height' width height) (plane : Plane UInt8 width height) :
    Plane UInt8 width' height' :=
  Vector.ofFn fun position => plane.sampleAt (motion.toEquiv (columnOf position, rowOf position))

private theorem sampleAt_moveSamples (motion : Pixel.Motion width' height' width height)
    (plane : Plane UInt8 width height) (pixel : Pixel width' height') :
    (moveSamples motion plane).sampleAt pixel = plane.sampleAt (motion.toEquiv pixel) := by
  simp [moveSamples, Plane.sampleAt, Plane.pixel]

theorem perceptualError_of_motion (motion : Pixel.Motion width' height' width height)
    (goal generated : Plane UInt8 width height) :
    perceptualError (moveSamples motion goal) (moveSamples motion generated) = perceptualError goal generated := by
  apply Plane.exactError_of_motion motion
  intro pixel
  simp only [sampleAt_gaps, sampleAt_moveSamples]

/-- The perceptual difference of two images of one size, computed exactly, stays the same when both are mirrored from
left to right or from top to bottom, and when the columns and the rows of both are exchanged. -/
theorem perceptualDifference_of_moved (goal generated : GrayImage) (sameWidth : goal.width = generated.width)
    (sameHeight : goal.height = generated.height) :
    ∃ error : ℚ,
      goal.perceptualDifferenceIn Arithmetic.rational generated = .ok error ∧
        goal.mirrorColumns.perceptualDifferenceIn Arithmetic.rational generated.mirrorColumns = .ok error ∧
        goal.mirrorRows.perceptualDifferenceIn Arithmetic.rational generated.mirrorRows = .ok error ∧
        goal.transpose.perceptualDifferenceIn Arithmetic.rational generated.transpose = .ok error := by
  obtain ⟨width, height, goal⟩ := goal
  obtain ⟨_, _, generated⟩ := generated
  simp only at sameWidth sameHeight
  subst sameWidth sameHeight
  have moved {width' height' : Nat} (motion : Pixel.Motion width' height' width height) :
      GrayImage.perceptualDifferenceIn Arithmetic.rational ⟨width', height', moveSamples motion goal⟩
        ⟨width', height', moveSamples motion generated⟩ = .ok (perceptualError goal generated) := by
    rw [perceptualDifferenceIn_rational, perceptualError_of_motion]
  exact ⟨_, perceptualDifferenceIn_rational goal generated, moved .mirrorColumns, moved .mirrorRows, moved .transpose⟩

/-- Two pixels in a row, of which the right one differs. After the exchange of columns and rows the image is upright
and the lower one differs. -/
theorem perceptualDifference_of_moved_pair :
    let goal : GrayImage := { width := 2, height := 1, samples := #v[0, 16] }
    let generated : GrayImage := GrayImage.black 2 1
    goal.width = generated.width ∧ goal.height = generated.height ∧
      goal.perceptualDifferenceIn Arithmetic.rational generated = .ok (7 ^ 3 + 5 ^ 3) ∧
      goal.mirrorColumns.perceptualDifferenceIn Arithmetic.rational generated.mirrorColumns = .ok (7 ^ 3 + 5 ^ 3) ∧
      goal.mirrorRows.perceptualDifferenceIn Arithmetic.rational generated.mirrorRows = .ok (7 ^ 3 + 5 ^ 3) ∧
      goal.transpose.perceptualDifferenceIn Arithmetic.rational generated.transpose = .ok (7 ^ 3 + 5 ^ 3) := by
  intro goal generated
  have value : goal.perceptualDifferenceIn Arithmetic.rational generated = .ok (7 ^ 3 + 5 ^ 3) := by
    decide +kernel
  obtain ⟨error, same, columns, rows, swapped⟩ := perceptualDifference_of_moved goal generated rfl rfl
  obtain rfl := Except.ok.inj (same.symm.trans value)
  exact ⟨rfl, rfl, value, columns, rows, swapped⟩

end Images

end EvoRaster
