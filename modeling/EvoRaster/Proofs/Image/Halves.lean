import EvoRaster.Proofs.Image.Discerning

/-!
Contract: the picture of two images side by side.

Owns:
- the pixels and rows of an image that is built pixel by pixel;
- `GrayImage.cut`, some columns of an image, without what lies left and right of them;
- `GrayImage.Halves`: where the pixels of both images are, row by row and place by place, and that both can be cut out;
- `GrayImage.beside_eq`, by which the joined rows are the samples of such an image;
- `GrayImage.beside_halves`: images of one size, and only these, make a picture with such halves.

The rows of a picture are twice as long as those of the images, so no sample keeps its place but those of the first
row of the left image. Images without columns or without rows are no exception.
-/

namespace EvoRaster

namespace GrayImage

/-! ## Images built pixel by pixel -/

section Built

variable {width height : Nat} {sample : Fin width → Fin height → UInt8}

@[simp] theorem pixel_ofPixels (x : Fin width) (y : Fin height) :
    (ofPixels width height sample).pixel x y = sample x y := by
  show (Vector.ofFn fun position => sample (columnOf position) (rowOf position))[pixelPosition x y] = _
  rw [Fin.getElem_fin, Vector.getElem_ofFn, Pixel.columnOf_pixelPosition, Pixel.rowOf_pixelPosition]

theorem ofPixels_pixel (image : GrayImage) : ofPixels image.width image.height image.pixel = image := by
  obtain ⟨width, height, samples⟩ := image
  simp only [ofPixels, mk.injEq, heq_eq_eq, true_and]
  apply Vector.ext
  intro position inside
  simp [pixel, Pixel.pixelPosition_columnOf_rowOf]

private theorem pixel?_of_inside {image : GrayImage} (x : Fin image.width) (y : Fin image.height) :
    image.pixel? x.val y.val = some (image.pixel x y) := by
  rw [pixel?, dif_pos ⟨by omega, by omega, by omega, by omega⟩]
  rfl

theorem pixel?_ofPixels (x y : Int) :
    (ofPixels width height sample).pixel? x y =
      if inside : 0 ≤ x ∧ 0 ≤ y ∧ x < width ∧ y < height then
        some (sample ⟨x.toNat, by omega⟩ ⟨y.toNat, by omega⟩)
      else none := by
  by_cases inside : 0 ≤ x ∧ 0 ≤ y ∧ x < width ∧ y < height
  · rw [dif_pos inside]
    exact (dif_pos inside).trans (congrArg some (pixel_ofPixels _ _))
  · rw [dif_neg inside]
    exact dif_neg inside

theorem rows_ofPixels :
    (ofPixels width height sample).rows =
      (List.finRange height).map fun y => (List.finRange width).map fun x => sample x y := by
  simp only [rows]
  exact List.map_congr_left fun y _ => List.map_congr_left fun x _ => pixel_ofPixels x y

/-- The samples are the rows, one after the other. -/
theorem samples_eq_flatten (image : GrayImage) : image.samples.toList = image.rows.flatten := by
  have inOrder : image.samples.toList = (Pixel.inOrder image.width image.height).map _ := Plane.toList_eq image.samples
  rw [inOrder, Pixel.inOrder, List.map_flatMap, rows, List.flatMap_def]
  simp only [List.map_map]
  rfl

/-- An image is made of its own samples. -/
theorem ofSamples_samples (image : GrayImage) :
    ofSamples image.width image.height image.samples.toList = .ok image := by
  rw [ofSamples, dif_pos image.samples.length_toList]
  rfl

end Built

/-! ## Halves -/

/-- Some columns of an image, from a first one on. Columns that the image does not have are black. -/
def cut (image : GrayImage) (first width : Nat) : GrayImage :=
  ofPixels width image.height fun x y => (image.pixel? (first + x.val : Nat) y.val).getD 0

private theorem cut_eq {image part : GrayImage} {first width : Nat} (sameWidth : width = part.width)
    (sameHeight : image.height = part.height)
    (pixels : ∀ (x : Fin part.width) (y : Fin part.height),
      image.pixel? (first + x.val : Nat) y.val = some (part.pixel x y)) : image.cut first width = part := by
  obtain ⟨imageWidth, imageHeight, samples⟩ := image
  subst sameWidth sameHeight
  calc cut ⟨imageWidth, part.height, samples⟩ first part.width = ofPixels part.width part.height part.pixel := by
        unfold cut
        congr 1
        funext x y
        rw [pixels, Option.getD_some]
    _ = part := ofPixels_pixel part

/-- The picture shows one image on the left and another one of its size on the right. -/
structure Halves (picture left right : GrayImage) : Prop where
  width : picture.width = 2 * left.width
  height : picture.height = left.height
  leftPixels : ∀ x y : Int, x < left.width → picture.pixel? x y = left.pixel? x y
  rightPixels : ∀ x y : Int, 0 ≤ x → picture.pixel? (left.width + x) y = right.pixel? x y
  rows : picture.rows = List.zipWith (· ++ ·) left.rows right.rows
  samples : picture.samples.toList = picture.rows.flatten
  leftCut : picture.cut 0 left.width = left
  rightCut : picture.cut left.width left.width = right

section Beside

variable {width height : Nat} (goal generated : Plane UInt8 width height)

/-- The pixels of two images of one size, side by side. -/
def sideBySide (x : Fin (width * 2)) (y : Fin height) : UInt8 :=
  if left : x.val < width then goal.pixel ⟨x.val, left⟩ y
  else generated.pixel ⟨x.val - width, by have := x.isLt; omega⟩ y

private theorem pixel?_left {x y : Int} (left : x < width) :
    (ofPixels (width * 2) height (sideBySide goal generated)).pixel? x y =
      pixel? ⟨width, height, goal⟩ x y := by
  rw [pixel?_ofPixels]
  by_cases inside : 0 ≤ x ∧ 0 ≤ y ∧ x < width ∧ y < height
  · have column : x.toNat < width := by omega
    have held : pixel? ⟨width, height, goal⟩ x y = some _ := dif_pos inside
    rw [dif_pos (by omega), held, sideBySide, dif_pos column]
    rfl
  · have outside : pixel? ⟨width, height, goal⟩ x y = none := dif_neg inside
    rw [dif_neg (by omega), outside]

private theorem pixel?_right {x y : Int} (least : 0 ≤ x) :
    (ofPixels (width * 2) height (sideBySide goal generated)).pixel? (width + x) y =
      pixel? ⟨width, height, generated⟩ x y := by
  rw [pixel?_ofPixels]
  by_cases inside : 0 ≤ x ∧ 0 ≤ y ∧ x < width ∧ y < height
  · have column : ¬(width + x).toNat < width := by omega
    have shifted : (width + x).toNat - width = x.toNat := by omega
    have held : pixel? ⟨width, height, generated⟩ x y = some _ := dif_pos inside
    rw [dif_pos (by omega), held, sideBySide, dif_neg column]
    simp only [shifted]
    rfl
  · have outside : pixel? ⟨width, height, generated⟩ x y = none := dif_neg inside
    rw [dif_neg (by omega), outside]

/-- A row of the picture is a row of the left image with the row of the right image after it. -/
theorem rows_sideBySide : (ofPixels (width * 2) height (sideBySide goal generated)).rows =
    List.zipWith (· ++ ·) (rows ⟨width, height, goal⟩) (rows ⟨width, height, generated⟩) := by
  rw [rows_ofPixels, rows, rows, List.zipWith_map, List.zipWith_self]
  refine List.map_congr_left fun y _ => List.ext_getElem ?_ fun position inside inside' => ?_
  · simp [Nat.mul_two]
  · rw [List.getElem_map, List.getElem_finRange, sideBySide]
    split
    · rename_i left
      rw [List.getElem_append_left (by simpa using left), List.getElem_map, List.getElem_finRange]
      rfl
    · rename_i right
      rw [List.getElem_append_right (by simpa using right), List.getElem_map, List.getElem_finRange]
      simp only [List.length_map, List.length_finRange]
      rfl

/-- The rows of both images, joined, are as many samples as the picture has. -/
theorem beside_eq : beside ⟨width, height, goal⟩ ⟨width, height, generated⟩ =
    .ok (ofPixels (width * 2) height (sideBySide goal generated)) := by
  have same : checkSameSize ⟨width, height, goal⟩ ⟨width, height, generated⟩ = .ok () :=
    checkSameSize_of_same ⟨rfl, rfl⟩
  rw [beside, same, ok_bind, ← rows_sideBySide, ← samples_eq_flatten]
  exact ofSamples_samples _

theorem halves_sideBySide :
    Halves (ofPixels (width * 2) height (sideBySide goal generated)) ⟨width, height, goal⟩
      ⟨width, height, generated⟩ where
  width := Nat.mul_comm width 2
  height := rfl
  leftPixels _ _ left := pixel?_left goal generated left
  rightPixels _ _ least := pixel?_right goal generated least
  rows := rows_sideBySide goal generated
  samples := samples_eq_flatten _
  leftCut := by
    refine cut_eq rfl rfl fun x y => ?_
    rw [Nat.zero_add, pixel?_left goal generated (Int.ofNat_lt.mpr x.isLt)]
    exact pixel?_of_inside x y
  rightCut := by
    refine cut_eq rfl rfl fun x y => ?_
    rw [Int.natCast_add, pixel?_right goal generated (by omega)]
    exact pixel?_of_inside x y

end Beside

theorem beside_ok {goal generated : GrayImage}
    (same : goal.width = generated.width ∧ goal.height = generated.height) :
    ∃ picture, goal.beside generated = .ok picture := by
  obtain ⟨width, height, goal⟩ := goal
  obtain ⟨_, _, generated⟩ := generated
  obtain ⟨rfl, rfl⟩ := same
  exact ⟨_, beside_eq goal generated⟩

private theorem refusesSizes_beside : RefusesSizes beside := by
  intro goal generated
  split
  · rename_i same
    exact beside_ok same
  · rename_i differ
    rw [beside, checkSameSize_of_differ differ]
    rfl

/-- Two images make a picture if and only if they are of one size. The picture shows both without a change, the first on
the left and the second on the right. -/
theorem beside_halves :
    RefusesSizes beside ∧
      ∀ goal generated : GrayImage, goal.width = generated.width ∧ goal.height = generated.height →
        ∃ picture, goal.beside generated = .ok picture ∧ picture.Halves goal generated := by
  refine ⟨refusesSizes_beside, fun goal generated same => ?_⟩
  obtain ⟨width, height, goal⟩ := goal
  obtain ⟨_, _, generated⟩ := generated
  obtain ⟨rfl, rfl⟩ := same
  exact ⟨_, beside_eq goal generated, halves_sideBySide goal generated⟩

/-- Two images of two rows, whose rows alternate in the picture. An image of as many pixels but of another size is
refused. -/
theorem beside_halves_of_two_rows :
    let goal : GrayImage := { width := 2, height := 2, samples := #v[1, 2, 3, 4] }
    let generated : GrayImage := { width := 2, height := 2, samples := #v[5, 6, 7, 8] }
    (goal.width = generated.width ∧ goal.height = generated.height) ∧
      (∃ picture, goal.beside generated = .ok picture ∧ picture.Halves goal generated ∧
        picture.samples.toList = [1, 2, 5, 6, 3, 4, 7, 8]) ∧
      goal.beside (black 4 1) = .error (.sizeMismatch 2 2 4 1) := by
  intro goal generated
  have same : goal.width = generated.width ∧ goal.height = generated.height := ⟨rfl, rfl⟩
  obtain ⟨refuses, shows⟩ := beside_halves
  obtain ⟨picture, made, halves⟩ := shows goal generated same
  refine ⟨same, ⟨picture, made, halves, ?_⟩, refuses goal (black 4 1)⟩
  rw [halves.samples, halves.rows]
  decide

end GrayImage

end EvoRaster
