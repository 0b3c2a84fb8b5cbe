import EvoRaster.Image.Difference
import Mathlib.Algebra.Group.Nat.Defs
import Mathlib.Data.List.Sort

/-!
Contract: the perceptual difference as sums over rings.

Owns:
- `Pixel.inOrder`, `Pixel.steps` and `Pixel.ring`: the pixels row by row, how far apart two of them are, and those at
  one distance from a center;
- `Plane.ringwiseError`, which says what the perceptual difference adds up, and in which order;
- `foldl_window`, by which a loop over the steps around a center visits the places near it that exist;
- `Plane.totalError_sums_rings`: the loops compute the sums over rings, for any arithmetic, any size and any reach.

No law of arithmetic is used. So the order of the additions counts, and every number is used as often as it is added.
-/

namespace EvoRaster

/-! ## Pixels -/

def columnOf {width height : Nat} (position : Fin (width * height)) : Fin width :=
  ⟨position.val % width, Nat.mod_lt _ (Nat.pos_of_mul_pos_right (Nat.zero_lt_of_lt position.isLt))⟩

def rowOf {width height : Nat} (position : Fin (width * height)) : Fin height :=
  ⟨position.val / width, Nat.div_lt_of_lt_mul position.isLt⟩

/-- The image whose pixels a function of column and row gives. -/
def GrayImage.ofPixels (width height : Nat) (pixel : Fin width → Fin height → UInt8) : GrayImage :=
  { width, height
    samples := Vector.ofFn fun position => pixel (columnOf position) (rowOf position) }

/-- A pixel, by its column and its row. -/
abbrev Pixel (width height : Nat) := Fin width × Fin height

namespace Pixel

variable {width height : Nat}

/-- All pixels, row by row. -/
def inOrder (width height : Nat) : List (Pixel width height) :=
  (List.finRange height).flatMap fun y => (List.finRange width).map fun x => (x, y)

/-- The place of a pixel among the samples. -/
def place (pixel : Pixel width height) : Nat := pixel.1 + pixel.2 * width

/-- The steps from one pixel to another, if a step may lead to any of the eight neighbors. -/
def steps (first second : Pixel width height) : Nat :=
  max ((second.1 : Int) - first.1).natAbs ((second.2 : Int) - first.2).natAbs

/-- The pixels of the image at a distance from a center, row by row. -/
def ring (center : Pixel width height) (distance : Nat) : List (Pixel width height) :=
  (inOrder width height).filter fun pixel => center.steps pixel = distance

@[simp] theorem columnOf_pixelPosition (x : Fin width) (y : Fin height) : columnOf (pixelPosition x y) = x := by
  apply Fin.ext
  simp [columnOf, pixelPosition, Nat.mod_eq_of_lt x.isLt]

@[simp] theorem rowOf_pixelPosition (x : Fin width) (y : Fin height) : rowOf (pixelPosition x y) = y := by
  apply Fin.ext
  have wide : 0 < width := Nat.zero_lt_of_lt x.isLt
  simp [rowOf, pixelPosition, Nat.add_mul_div_right _ _ wide, Nat.div_eq_of_lt x.isLt]

theorem pixelPosition_columnOf_rowOf (position : Fin (width * height)) :
    pixelPosition (columnOf position) (rowOf position) = position :=
  Fin.ext (Nat.mod_add_div' position width)

theorem mem_inOrder (pixel : Pixel width height) : pixel ∈ inOrder width height := by
  simp [inOrder]

theorem mem_ring {center pixel : Pixel width height} {distance : Nat} :
    pixel ∈ center.ring distance ↔ center.steps pixel = distance := by
  simp [ring, mem_inOrder]

private theorem range_rows (width height : Nat) :
    ((List.range height).flatMap fun y => (List.range width).map fun x => x + y * width) =
      List.range (width * height) := by
  induction height with
  | zero => rfl
  | succ height inductionHypothesis =>
      rw [List.range_succ, List.flatMap_append, inductionHypothesis, Nat.mul_succ, List.range_add]
      simp [Nat.add_comm, Nat.mul_comm]

/-- In this order the places of the pixels are the numbers from zero on. -/
theorem map_place_inOrder (width height : Nat) :
    (inOrder width height).map place = List.range (width * height) := by
  rw [← range_rows, ← List.map_coe_finRange_eq_range, ← List.map_coe_finRange_eq_range]
  simp only [inOrder, List.map_flatMap, List.map_map, List.flatMap_map]
  rfl

end Pixel

/-! ## Loops around a center -/

/-- The places at most a distance away from a center, in their order. -/
def near {size : Nat} (center : Fin size) (distance : Nat) : List (Fin size) :=
  (List.finRange size).filter fun place => ((place : Int) - center).natAbs ≤ distance

/-- The steps around a center that stay inside, with the places that they lead to. -/
private theorem filterMap_window {size : Nat} (center : Fin size) (distance : Nat) :
    (List.range (2 * distance + 1)).filterMap (fun step =>
        if inside : distance ≤ center + step ∧ center + step - distance < size then
          some (step, (⟨center + step - distance, inside.2⟩ : Fin size))
        else none) =
      (near center distance).map fun place => (place.val + distance - center, place) := by
  apply List.Pairwise.eq_of_mem_iff (r := fun first second : Nat × Fin size => first.2 < second.2)
  · rw [List.pairwise_filterMap]
    refine List.pairwise_lt_range.imp fun {first second} before => ?_
    grind
  · rw [List.pairwise_map]
    exact (List.pairwise_lt_finRange size).filter _
  · rintro ⟨step, place⟩
    have bound := place.isLt
    simp only [List.mem_filterMap, List.mem_range, Option.dite_none_right_eq_some, Option.some.injEq, Prod.mk.injEq,
      Fin.ext_iff, exists_and_left, exists_prop, ↓existsAndEq, true_and, near, List.mem_map, List.mem_filter,
      List.mem_finRange, decide_eq_true_eq]
    constructor
    · rintro ⟨within, inside, same⟩
      exact ⟨place, by omega, by omega, rfl⟩
    · rintro ⟨other, close, rfl, same⟩
      omega

/-- A loop over the steps around a center visits the places near it that exist, in their order. -/
theorem foldl_window {β : Type} {size : Nat} (center : Fin size) (distance : Nat) (visit : β → Nat → Fin size → β)
    (start : β) :
    (List.range (2 * distance + 1)).foldl
        (fun state step =>
          if inside : distance ≤ center + step ∧ center + step - distance < size then
            visit state step ⟨center + step - distance, inside.2⟩
          else state)
        start =
      (near center distance).foldl (fun state place => visit state (place.val + distance - center) place) start := by
  have visited := congrArg (List.foldl (fun state (step, place) => visit state step place) start)
    (filterMap_window center distance)
  rw [List.foldl_filterMap, List.foldl_map] at visited
  rw [← visited]
  congr 1
  funext state step
  split <;> simp [*]

/-! ## Sums over rings -/

namespace Arithmetic

variable {α : Type} (arithmetic : Arithmetic α)

/-- The sum of numbers, added up in their order. -/
def sum (numbers : List α) : α := numbers.foldl arithmetic.add arithmetic.zero

def mean (numbers : List α) : α := arithmetic.div (arithmetic.sum numbers) (arithmetic.ofNat numbers.length)

end Arithmetic

/-- The tally with one member more. -/
def Tally.record {α : Type} (arithmetic : Arithmetic α) (tally : Tally α) (sample : α) : Tally α :=
  { total := arithmetic.add tally.total sample, count := tally.count + 1 }

/-- The weights up to a distance, from a list that starts with the weight of the pixel itself. -/
def RingWeights.upTo {α : Type} (weights : List α) (reach : Nat) (enough : reach < weights.length) : RingWeights α where
  own := weights[0]
  rings := (List.finRange reach).map fun ring : Fin reach => weights[ring.val + 1]

namespace Plane

variable {α : Type} {width height : Nat}

/-- The sample of a pixel. -/
def sampleAt (plane : Plane α width height) (pixel : Pixel width height) : α := plane.pixel pixel.1 pixel.2

theorem ext_sampleAt {left right : Plane α width height}
    (same : ∀ pixel, left.sampleAt pixel = right.sampleAt pixel) : left = right := by
  apply Vector.ext
  intro position inside
  have pixel := same (columnOf ⟨position, inside⟩, rowOf ⟨position, inside⟩)
  simpa [sampleAt, Plane.pixel, Pixel.pixelPosition_columnOf_rowOf] using pixel

/-- The samples are those of the pixels in their order. -/
theorem toList_eq (plane : Plane α width height) :
    plane.toList = (Pixel.inOrder width height).map plane.sampleAt := by
  have places := Pixel.map_place_inOrder width height
  have count : (Pixel.inOrder width height).length = width * height := by
    simpa using congrArg List.length places
  apply List.ext_getElem
  · simp [count]
  · intro position inside inside'
    have counted : position < (Pixel.inOrder width height).length := by simpa using inside'
    have place : (Pixel.inOrder width height)[position].place = position := by
      rw [← List.getElem_map Pixel.place, List.getElem_of_eq places, List.getElem_range]
      simpa using counted
    simp only [List.getElem_map, Vector.getElem_toList]
    exact getElem_congr_idx place.symm

section Reference

variable (arithmetic : Arithmetic α) (plane : Plane α width height) (center : Pixel width height)

/-- What a ring adds to the error of its center: the cube of the weighted mean, or nothing if no pixel of the ring
lies in the image. -/
def ringTerms (weight : α) (distance : Nat) : List α :=
  match (center.ring distance).map plane.sampleAt with
  | [] => []
  | samples => [arithmetic.cube (arithmetic.mul weight (arithmetic.mean samples))]

/-- The error of a pixel: the cube of its own weighted sample, and then what the rings add, from the inmost on. -/
def ringwisePixelError (weights : List α) (reach : Nat) (enough : reach < weights.length) : α :=
  ((List.finRange reach).flatMap fun ring : Fin reach =>
      plane.ringTerms arithmetic center weights[ring.val + 1] (ring.val + 1)).foldl
    arithmetic.add (arithmetic.cube (arithmetic.mul weights[0] (plane.sampleAt center)))

/-- The sum of the errors of all pixels, row by row. -/
def ringwiseError (weights : List α) (reach : Nat) (enough : reach < weights.length) : α :=
  arithmetic.sum ((Pixel.inOrder width height).map fun center =>
    plane.ringwisePixelError arithmetic center weights reach enough)

end Reference

/-! ## The loops -/

section Loops

variable (arithmetic : Arithmetic α) (plane : Plane α width height) (center : Pixel width height)

/-- In a row near the center, the border of the square is the ring. -/
private theorem steps_eq_iff {distance : Nat} (x : Fin width) {row : Fin height}
    (close : row ∈ near center.2 distance) :
    center.steps (x, row) = distance ↔
      ((x : Int) - center.1).natAbs ≤ distance ∧
        onBorder distance (x.val + distance - center.1) (row.val + distance - center.2) = true := by
  simp only [near, List.mem_filter, List.mem_finRange, decide_eq_true_eq, true_and] at close
  simp only [Pixel.steps, onBorder, Bool.or_eq_true, beq_iff_eq]
  omega

private theorem tallyRow_eq {distance : Nat} {row : Fin height} (close : row ∈ near center.2 distance)
    (tally : Tally α) :
    plane.tallyRow arithmetic center.1 distance (row.val + distance - center.2) row tally =
      (((List.finRange width).map fun x => (x, row)).filter fun pixel => center.steps pixel = distance).foldl
        (fun tally pixel => tally.record arithmetic (plane.sampleAt pixel)) tally := by
  let down := row.val + distance - center.2
  let visit := fun (tally : Tally α) (across : Nat) (x : Fin width) =>
    if onBorder distance across down then tally.record arithmetic (plane.pixel x row) else tally
  have visited : plane.tallyRow arithmetic center.1 distance down row tally =
      (near center.1 distance).foldl (fun tally x => visit tally (x.val + distance - center.1) x) tally := by
    rw [← foldl_window, tallyRow]
    congr 1
    funext tally across
    by_cases border : onBorder distance across down
    · simp [visit, border, Tally.record]
    · simp [visit, border]
  rw [visited, List.filter_map, List.foldl_map, near, List.foldl_filter, List.foldl_filter]
  congr 1
  funext tally x
  have border := steps_eq_iff center x close
  by_cases within : ((x : Int) - center.1).natAbs ≤ distance
  · simp [visit, down, within, border, Tally.record, sampleAt]
  · simp [within, border]

/-- The loops over the steps around a center visit its ring. -/
theorem tallyRing_eq (distance : Nat) :
    plane.tallyRing arithmetic center.1 center.2 distance =
      ((center.ring distance).map plane.sampleAt).foldl (Tally.record arithmetic)
        { total := arithmetic.zero, count := 0 } := by
  let rowOf := fun y : Fin height =>
    ((List.finRange width).map fun x => (x, y)).filter fun pixel => center.steps pixel = distance
  have visited : plane.tallyRing arithmetic center.1 center.2 distance =
      (near center.2 distance).foldl
        (fun tally y => (rowOf y).foldl (fun tally pixel => tally.record arithmetic (plane.sampleAt pixel)) tally)
        { total := arithmetic.zero, count := 0 } := by
    rw [tallyRing, foldl_window center.2 distance
      (fun tally down y => plane.tallyRow arithmetic center.1 distance down y tally)]
    exact List.foldl_ext _ _ _ fun tally y close => tallyRow_eq arithmetic plane center close tally
  rw [visited, Pixel.ring, Pixel.inOrder, List.filter_flatMap, List.foldl_map, List.foldl_flatMap, near,
    List.foldl_filter]
  congr 1
  funext tally y
  by_cases within : ((y : Int) - center.2).natAbs ≤ distance
  · simp [within, rowOf]
  · have far : rowOf y = [] := by
      rw [List.filter_eq_nil_iff, List.forall_mem_map]
      intro x _
      rw [decide_eq_true_eq]
      simp only [Pixel.steps]
      omega
    simp only [rowOf] at far
    simp [within, far]

private theorem foldl_record (samples : List α) (tally : Tally α) :
    samples.foldl (Tally.record arithmetic) tally =
      { total := samples.foldl arithmetic.add tally.total, count := tally.count + samples.length } := by
  induction samples generalizing tally with
  | nil => rfl
  | cons sample rest inductionHypothesis =>
      rw [List.foldl_cons, inductionHypothesis, List.foldl_cons, List.length_cons, ← Nat.succ_add_eq_add_succ]
      rfl

theorem addRing_eq (partialError weight : α) (distance : Nat) :
    plane.addRing arithmetic center.1 center.2 partialError weight distance =
      (plane.ringTerms arithmetic center weight distance).foldl arithmetic.add partialError := by
  rw [addRing, tallyRing_eq, foldl_record, ringTerms]
  cases (center.ring distance).map plane.sampleAt with
  | nil => rfl
  | cons sample rest => simp [Arithmetic.mean, Arithmetic.sum]

private theorem zipIdx_upTo (weights : List α) (reach : Nat) (enough : reach < weights.length) :
    (RingWeights.upTo weights reach enough).rings.zipIdx 1 =
      (List.finRange reach).map fun ring : Fin reach => (weights[ring.val + 1], ring.val + 1) := by
  apply List.ext_getElem <;> simp [RingWeights.upTo, Nat.add_comm]

theorem pixelError_eq (weights : List α) (reach : Nat) (enough : reach < weights.length) :
    plane.pixelError arithmetic (.upTo weights reach enough) center.1 center.2 =
      plane.ringwisePixelError arithmetic center weights reach enough := by
  rw [pixelError, zipIdx_upTo, List.foldl_map, ringwisePixelError, List.foldl_flatMap]
  simp only [addRing_eq]
  rfl

theorem totalError_eq_sum (weights : RingWeights α) :
    plane.totalError arithmetic weights =
      arithmetic.sum ((Pixel.inOrder width height).map fun pixel =>
        plane.pixelError arithmetic weights pixel.1 pixel.2) := by
  rw [Arithmetic.sum, List.foldl_map, Pixel.inOrder, List.foldl_flatMap, totalError]
  simp only [List.foldl_map]

theorem totalError_eq (weights : List α) (reach : Nat) (enough : reach < weights.length) :
    plane.totalError arithmetic (.upTo weights reach enough) =
      plane.ringwiseError arithmetic weights reach enough := by
  simp only [totalError_eq_sum, pixelError_eq, ringwiseError]

end Loops

/-- The perceptual difference of any size, with any weights and any reach and in any arithmetic, adds up the cubes of
the weighted samples and of the weighted means of the rings. The members of a ring are the pixels of the image at one
distance from its center, once each and row by row. Each sample is read at the place of its pixel, which is the number
of the pixel in that order. -/
theorem totalError_sums_rings (arithmetic : Arithmetic α) (plane : Plane α width height) (weights : List α)
    (reach : Nat) (enough : reach < weights.length) :
    plane.totalError arithmetic (.upTo weights reach enough) =
        plane.ringwiseError arithmetic weights reach enough ∧
      (∀ (center : Pixel width height) (distance : Nat),
        (center.ring distance).Sublist (Pixel.inOrder width height) ∧
          ∀ pixel, pixel ∈ center.ring distance ↔ center.steps pixel = distance) ∧
      (Pixel.inOrder width height).map Pixel.place = List.range (width * height) ∧
      ∀ pixel : Pixel width height,
        ∃ inside : pixel.place < width * height, plane.sampleAt pixel = plane[pixel.place] := by
  refine ⟨totalError_eq arithmetic plane weights reach enough, fun center distance => ?_,
    Pixel.map_place_inOrder width height, fun pixel => ?_⟩
  · exact ⟨List.filter_sublist, fun pixel => Pixel.mem_ring⟩
  · exact ⟨(pixelPosition pixel.1 pixel.2).isLt, rfl⟩

/-- Every ring is clipped in a single row, and the rings at distance two and three miss the pixel in the middle. The
last weight is not used. -/
theorem totalError_sums_rings_of_single_row :
    let whole : Arithmetic Nat := { zero := 0, add := (· + ·), mul := (· * ·), div := (· / ·), ofNat := id }
    let plane : Plane Nat 3 1 := #v[0, 16, 0]
    3 < [7, 5, 3, 1, 9].length ∧
      plane.totalError whole (.upTo [7, 5, 3, 1, 9] 3 (by decide)) = (7 * 16) ^ 3 + 2 * (5 * 16) ^ 3 ∧
      plane.ringwiseError whole [7, 5, 3, 1, 9] 3 (by decide) = (7 * 16) ^ 3 + 2 * (5 * 16) ^ 3 := by
  intro whole plane
  have sums := (totalError_sums_rings whole plane [7, 5, 3, 1, 9] 3 (by decide)).1
  have total : plane.totalError whole (.upTo [7, 5, 3, 1, 9] 3 (by decide)) = (7 * 16) ^ 3 + 2 * (5 * 16) ^ 3 := by
    decide
  exact ⟨by decide, total, sums.symm.trans total⟩

end Plane

end EvoRaster
