import EvoRaster.Image.Gray
import EvoRaster.Proofs.Outcome.Except
import Mathlib.Data.List.Induction

/-!
Contract: what an image holds after a sequence of writes.

Owns:
- `PixelWrite`, an attempt to set a sample, with the places that it names and the condition under which it succeeds;
- `GrayImage.attemptAll`, a sequence of attempts of which some may fail;
- `GrayImage.write_isOk_iff` and `sample?_attempt`, for one attempt, and `sample?_attemptAll`: a sample is that of the
  last attempt that has set its place;
- `GrayImage.pixels_after_writes`, for whole sequences and all coordinates.

A write looks at one flat place only. Coordinates outside the image may name a place inside, counted from either end, so
one pixel has many names. The coordinates of a pixel are those of its names that lie inside, and there is one such pair.
-/

namespace EvoRaster

/-! ## Attempts -/

/-- An attempt to set the sample at the place that coordinates name. -/
structure PixelWrite where
  x : Int
  y : Int
  color : Int
deriving DecidableEq, Repr

namespace GrayImage

/-- The flat place of coordinates, inside the image or not. -/
def flatPlace (image : GrayImage) (x y : Int) : Int := x + y * image.width

/-- The coordinates are those of a pixel. -/
def Contains (image : GrayImage) (x y : Int) : Prop := 0 ≤ x ∧ 0 ≤ y ∧ x < image.width ∧ y < image.height

instance (image : GrayImage) (x y : Int) : Decidable (image.Contains x y) := by
  unfold Contains
  infer_instance

/-- The place, counted from either end, is that of a sample, and the color is one that a sample can have. -/
def Accepts (image : GrayImage) (write : PixelWrite) : Prop :=
  (-(image.pixels : Int) ≤ image.flatPlace write.x write.y ∧ image.flatPlace write.x write.y < image.pixels) ∧
    0 ≤ write.color ∧ write.color ≤ 255

instance (image : GrayImage) (write : PixelWrite) : Decidable (image.Accepts write) := by
  unfold Accepts
  infer_instance

/-- The attempt succeeds and its place, counted from the start or from the end, is the given one. -/
def Sets (image : GrayImage) (place : Int) (write : PixelWrite) : Prop :=
  image.Accepts write ∧
    (image.flatPlace write.x write.y = place ∨ image.flatPlace write.x write.y = place - image.pixels)

instance (image : GrayImage) (place : Int) (write : PixelWrite) : Decidable (image.Sets place write) := by
  unfold Sets
  infer_instance

/-- One attempt. If it fails, the image stays as it is. -/
def attempt (image : GrayImage) (write : PixelWrite) : GrayImage :=
  match image.write write.x write.y write.color with
  | .ok next => next
  | .error _ => image

def attemptAll (image : GrayImage) (writes : List PixelWrite) : GrayImage := writes.foldl attempt image

/-- The color of the last attempt that sets a place, if there is one. -/
def lastColor? (image : GrayImage) (place : Int) (writes : List PixelWrite) : Option Int :=
  (writes.filter fun write => image.Sets place write).getLast?.map PixelWrite.color

/-! ## One attempt -/

variable {image : GrayImage} {write : PixelWrite}

theorem locate_eq_ok_iff {x y : Int} {place : Fin image.pixels} :
    image.locate x y = .ok place ↔
      image.flatPlace x y = place.val ∨ image.flatPlace x y = (place.val : Int) - image.pixels := by
  rw [← position?_eq_some_iff, locate, flatPlace]
  cases position? image.pixels (x + y * image.width) <;> simp

theorem locate_isOk_iff {x y : Int} :
    (∃ place, image.locate x y = .ok place) ↔
      -(image.pixels : Int) ≤ image.flatPlace x y ∧ image.flatPlace x y < image.pixels := by
  constructor
  · rintro ⟨place, located⟩
    have bound := place.isLt
    have named := locate_eq_ok_iff.mp located
    omega
  · rintro ⟨least, below⟩
    by_cases counted : 0 ≤ image.flatPlace x y
    · exact ⟨⟨(image.flatPlace x y).toNat, by omega⟩, locate_eq_ok_iff.mpr (.inl (by dsimp only; omega))⟩
    · exact ⟨⟨(image.flatPlace x y + image.pixels).toNat, by omega⟩,
        locate_eq_ok_iff.mpr (.inr (by dsimp only; omega))⟩

theorem sampleOf_isOk_iff {color : Int} : (∃ sample, sampleOf color = .ok sample) ↔ 0 ≤ color ∧ color ≤ 255 := by
  unfold sampleOf
  split <;> simp_all

private theorem toNat_of_sampleOf {color : Int} {sample : UInt8} (sampled : sampleOf color = .ok sample) :
    (sample.toNat : Int) = color := by
  unfold sampleOf at sampled
  split at sampled
  · rename_i inRange
    cases sampled
    have small : color.toNat < UInt8.size := by
      change color.toNat < 256
      omega
    rw [UInt8.toNat_ofNat_of_lt' small]
    omega
  · cases sampled

theorem write_isOk_iff :
    (∃ next, image.write write.x write.y write.color = .ok next) ↔ image.Accepts write := by
  rw [Accepts, ← locate_isOk_iff, ← sampleOf_isOk_iff, GrayImage.write]
  cases image.locate write.x write.y with
  | error cause => simp
  | ok place => cases sampleOf write.color <;> simp [pure, Except.pure]

theorem attempt_of_refused (refused : ¬image.Accepts write) : image.attempt write = image := by
  unfold attempt
  cases wrote : image.write write.x write.y write.color with
  | ok next => exact absurd (write_isOk_iff.mp ⟨next, wrote⟩) refused
  | error cause => rfl

/-- An accepted attempt sets one sample, and nothing else. -/
theorem attempt_of_accepted (accepted : image.Accepts write) :
    ∃ (place : Fin image.pixels) (sample : UInt8),
      (image.flatPlace write.x write.y = place.val ∨
        image.flatPlace write.x write.y = (place.val : Int) - image.pixels) ∧
      (sample.toNat : Int) = write.color ∧
      image.attempt write = { image with samples := image.samples.set place.val sample place.isLt } := by
  obtain ⟨place, located⟩ := locate_isOk_iff.mpr accepted.1
  obtain ⟨sample, sampled⟩ := sampleOf_isOk_iff.mpr accepted.2
  refine ⟨place, sample, locate_eq_ok_iff.mp located, toNat_of_sampleOf sampled, ?_⟩
  rw [attempt, GrayImage.write, located, ok_bind, sampled, ok_bind]
  rfl

private theorem size_attempt (image : GrayImage) (write : PixelWrite) :
    (image.attempt write).width = image.width ∧ (image.attempt write).height = image.height := by
  by_cases accepted : image.Accepts write
  · obtain ⟨place, sample, -, -, attempted⟩ := attempt_of_accepted accepted
    rw [attempted]
    exact ⟨rfl, rfl⟩
  · rw [attempt_of_refused accepted]
    exact ⟨rfl, rfl⟩

/-- The sample at a place, as a number. Outside of the image there is none. -/
def sample? (image : GrayImage) (place : Nat) : Option Int := image.samples[place]?.map fun sample => sample.toNat

theorem sample?_attempt (write : PixelWrite) {place : Nat} (inside : place < image.pixels) :
    (image.attempt write).sample? place =
      if image.Sets place write then some write.color else image.sample? place := by
  by_cases accepted : image.Accepts write
  · obtain ⟨named, sample, flat, color, attempted⟩ := attempt_of_accepted accepted
    have bound := named.isLt
    rw [attempted]
    by_cases here : named.val = place
    · rw [if_pos ⟨accepted, by omega⟩, ← color]
      simp [sample?, here, show place < image.width * image.height from inside]
    · rw [if_neg fun sets => here (by have := sets.2; omega)]
      exact congrArg (Option.map _) (Vector.getElem?_set_ne named.isLt here)
  · rw [attempt_of_refused accepted, if_neg fun sets => accepted sets.1]

/-! ## Sequences of attempts -/

/-- Images of one size give the same meaning to coordinates. -/
structure Resembles (image other : GrayImage) : Prop where
  width : image.width = other.width
  height : image.height = other.height

namespace Resembles

variable {other : GrayImage} (alike : image.Resembles other)

include alike

theorem pixels : image.pixels = other.pixels := by rw [GrayImage.pixels, GrayImage.pixels, alike.width, alike.height]

theorem flatPlace (x y : Int) : image.flatPlace x y = other.flatPlace x y := by
  rw [GrayImage.flatPlace, GrayImage.flatPlace, alike.width]

theorem contains (x y : Int) : image.Contains x y ↔ other.Contains x y := by
  rw [Contains, Contains, alike.width, alike.height]

theorem accepts (write : PixelWrite) : image.Accepts write ↔ other.Accepts write := by
  rw [Accepts, Accepts, alike.pixels, alike.flatPlace]

theorem sets (place : Int) (write : PixelWrite) : image.Sets place write ↔ other.Sets place write := by
  rw [Sets, Sets, alike.accepts, alike.pixels, alike.flatPlace]

end Resembles

theorem attemptAll_concat (image : GrayImage) (writes : List PixelWrite) (write : PixelWrite) :
    image.attemptAll (writes ++ [write]) = (image.attemptAll writes).attempt write := by
  rw [attemptAll, List.foldl_append, attemptAll]
  rfl

theorem attemptAll_resembles (image : GrayImage) (writes : List PixelWrite) :
    (image.attemptAll writes).Resembles image := by
  induction writes using List.reverseRecOn with
  | nil => exact ⟨rfl, rfl⟩
  | append_singleton writes write inductionHypothesis =>
      obtain ⟨width, height⟩ := size_attempt (image.attemptAll writes) write
      rw [attemptAll_concat]
      exact ⟨width.trans inductionHypothesis.width, height.trans inductionHypothesis.height⟩

theorem lastColor?_concat (image : GrayImage) (place : Int) (writes : List PixelWrite) (write : PixelWrite) :
    image.lastColor? place (writes ++ [write]) =
      if image.Sets place write then some write.color else image.lastColor? place writes := by
  rw [lastColor?, lastColor?, List.filter_append]
  by_cases sets : image.Sets place write <;> simp [sets]

/-- A sample is that of the last attempt that has set its place. -/
theorem sample?_attemptAll (image : GrayImage) (writes : List PixelWrite) {place : Nat}
    (inside : place < image.pixels) :
    (image.attemptAll writes).sample? place = (image.lastColor? place writes).or (image.sample? place) := by
  induction writes using List.reverseRecOn with
  | nil => rfl
  | append_singleton writes write inductionHypothesis =>
      have alike := attemptAll_resembles image writes
      rw [attemptAll_concat, sample?_attempt write (alike.pixels ▸ inside), lastColor?_concat, inductionHypothesis]
      simp only [alike.sets]
      split <;> rfl

/-! ## Pixels -/

theorem pixel?_eq_none_iff {x y : Int} : image.pixel? x y = none ↔ ¬image.Contains x y := by
  unfold pixel? Contains
  split <;> simp_all

/-- A pixel is read without a failure, and its sample is the one at its flat place. -/
theorem exists_pixel {x y : Int} (inside : image.Contains x y) :
    ∃ (place : Nat) (sample : UInt8), image.flatPlace x y = place ∧ place < image.pixels ∧
      image.pixel? x y = some sample ∧ image.read x y = .ok sample ∧
        image.sample? place = some (sample.toNat : Int) := by
  have ⟨left, top, right, bottom⟩ := inside
  let place := pixelPosition (⟨x.toNat, by omega⟩ : Fin image.width) (⟨y.toNat, by omega⟩ : Fin image.height)
  have flat : image.flatPlace x y = place.val := by
    have column : ((x.toNat : Nat) : Int) = x := Int.toNat_of_nonneg left
    have row : ((y.toNat : Nat) : Int) = y := Int.toNat_of_nonneg top
    simp [place, pixelPosition, flatPlace, column, row]
  refine ⟨place, image.samples[place], flat, place.isLt, dif_pos inside, ?_, ?_⟩
  · have located : image.locate x y = .ok place := locate_eq_ok_iff.mpr (.inl flat)
    rw [read, located]
    rfl
  · rw [sample?, Vector.getElem?_eq_getElem place.isLt]
    rfl

/-- The flat place of a pixel, counted from either end, belongs to no other pixel. -/
private theorem eq_of_flatPlace {x y x' y' : Int} (inside : image.Contains x y) (inside' : image.Contains x' y')
    (same : image.flatPlace x' y' = image.flatPlace x y) : x' = x ∧ y' = y := by
  have wide : (0 : Int) < image.width := Int.lt_of_le_of_lt inside.1 inside.2.2.1
  have columns := congrArg (· % (image.width : Int)) same
  simp only [flatPlace, Int.add_mul_emod_self_right, Int.emod_eq_of_lt inside.1 inside.2.2.1,
    Int.emod_eq_of_lt inside'.1 inside'.2.2.1] at columns
  rw [flatPlace, flatPlace, columns] at same
  exact ⟨columns, Int.eq_of_mul_eq_mul_right (Int.ne_of_gt wide) (Int.add_left_cancel same)⟩

/-- A write at a pixel does not reach another pixel. -/
private theorem not_sets_of_pixel {x y : Int} {write : PixelWrite} (inside : image.Contains x y)
    (inside' : image.Contains write.x write.y) (apart : (write.x, write.y) ≠ (x, y)) :
    ¬image.Sets (image.flatPlace x y) write := by
  rintro ⟨-, same | fromEnd⟩
  · obtain ⟨column, row⟩ := eq_of_flatPlace inside inside' same
    exact apart (by rw [column, row])
  -- A pixel is counted from the start, and the places counted from the end are negative.
  · obtain ⟨place, -, flat, below, -⟩ := exists_pixel inside
    obtain ⟨place', -, flat', -, -⟩ := exists_pixel inside'
    omega

/-- A pixel has the color of the last attempt that has set its place, and the sample that it had in the beginning if
there is none. -/
theorem pixel?_attemptAll (writes : List PixelWrite) {x y : Int} (inside : image.Contains x y) :
    ∃ initial sample, image.pixel? x y = some initial ∧ (image.attemptAll writes).pixel? x y = some sample ∧
      (image.attemptAll writes).read x y = .ok sample ∧
      (sample.toNat : Int) = (image.lastColor? (image.flatPlace x y) writes).getD initial.toNat := by
  have alike := attemptAll_resembles image writes
  obtain ⟨place, initial, flat, below, held, -, first⟩ := exists_pixel inside
  obtain ⟨place', sample, flat', -, holds, read, last⟩ := exists_pixel ((alike.contains x y).mpr inside)
  obtain rfl : place' = place := by
    rw [alike.flatPlace, flat] at flat'
    exact (Int.ofNat.inj flat').symm
  refine ⟨initial, sample, held, holds, read, ?_⟩
  rw [sample?_attemptAll image writes below, first, ← flat] at last
  cases found : image.lastColor? (image.flatPlace x y) writes <;> rw [found] at last <;> simpa using last.symm

theorem pixel?_attempt_of_apart {x y : Int} {write : PixelWrite} (inside : image.Contains x y)
    (inside' : image.Contains write.x write.y) (apart : (write.x, write.y) ≠ (x, y)) :
    (image.attempt write).pixel? x y = image.pixel? x y := by
  have missed := not_sets_of_pixel inside inside' apart
  obtain ⟨initial, sample, held, holds, -, color⟩ := pixel?_attemptAll [write] inside
  have none : image.lastColor? (image.flatPlace x y) [write] = Option.none := by
    rw [lastColor?, List.filter_cons_of_neg (by simpa using missed)]
    rfl
  rw [none, Option.getD_none, Int.natCast_inj, UInt8.toNat_inj] at color
  rw [held, ← color]
  exact holds

/-- Whatever is written, in whatever order, the image keeps its size, and its samples stay in range. A write is accepted
if and only if its place, counted from either end, and its color are in range, and a write that is not accepted changes
nothing. Afterwards every pixel can be read, there is nothing to read elsewhere, and a pixel has the color of the last
write that has set its place. Writes at other pixels never set it. -/
theorem pixels_after_writes (image : GrayImage) (writes : List PixelWrite) :
    let after := image.attemptAll writes
    (after.width = image.width ∧ after.height = image.height ∧
        after.samples.toList.length = image.width * image.height ∧
        ∀ sample ∈ after.samples.toList, sample.toNat ≤ 255) ∧
      (∀ write : PixelWrite,
        ((∃ next, after.write write.x write.y write.color = .ok next) ↔ image.Accepts write) ∧
          (¬image.Accepts write → after.attempt write = after)) ∧
      ∀ x y : Int,
        (after.pixel? x y = none ↔ ¬image.Contains x y) ∧
          (image.Contains x y →
            (∃ initial sample, image.pixel? x y = some initial ∧ after.pixel? x y = some sample ∧
              after.read x y = .ok sample ∧
              (sample.toNat : Int) = (image.lastColor? (image.flatPlace x y) writes).getD initial.toNat) ∧
            ∀ write : PixelWrite, image.Contains write.x write.y → (write.x, write.y) ≠ (x, y) →
              (after.attempt write).pixel? x y = after.pixel? x y) := by
  intro after
  have alike : after.Resembles image := attemptAll_resembles image writes
  refine ⟨⟨alike.width, alike.height, ?_, fun sample _ => Nat.le_of_lt_succ sample.toNat_lt⟩, fun write => ?_,
    fun x y => ⟨?_, fun inside => ⟨pixel?_attemptAll writes inside, fun write inside' apart => ?_⟩⟩⟩
  · rw [Vector.length_toList, alike.width, alike.height]
  · rw [← alike.accepts]
    exact ⟨write_isOk_iff, attempt_of_refused⟩
  · rw [pixel?_eq_none_iff, alike.contains]
  · exact pixel?_attempt_of_apart ((alike.contains x y).mpr inside) ((alike.contains _ _).mpr inside') apart

/-- The last pixel is written under the names of two places outside, of which the second is counted from the end. The
other writes are refused or meet another pixel. -/
theorem pixels_after_writes_of_aliases :
    let image := black 2 2
    let writes : List PixelWrite :=
      [{ x := 3, y := 0, color := 9 }, { x := 1, y := 0, color := 200 }, { x := -1, y := 0, color := 7 },
        { x := 0, y := 0, color := 256 }]
    let refused : PixelWrite := { x := 0, y := 2, color := 1 }
    let elsewhere : PixelWrite := { x := 1, y := 0, color := 1 }
    let after := image.attemptAll writes
    image.Contains 1 1 ∧ ¬image.Accepts refused ∧ after.attempt refused = after ∧
      (∃ sample, after.pixel? 1 1 = some sample ∧ (sample.toNat : Int) = 7) ∧
      image.Contains elsewhere.x elsewhere.y ∧ (elsewhere.x, elsewhere.y) ≠ (1, 1) ∧
      (after.attempt elsewhere).pixel? 1 1 = after.pixel? 1 1 := by
  intro image writes refused elsewhere after
  have inside : image.Contains 1 1 := by decide
  have inside' : image.Contains elsewhere.x elsewhere.y := by decide
  have notAccepted : ¬image.Accepts refused := by decide
  have apart : (elsewhere.x, elsewhere.y) ≠ (1, 1) := by decide
  have last : image.lastColor? (image.flatPlace 1 1) writes = some 7 := by decide
  obtain ⟨-, attempts, pixels⟩ := pixels_after_writes image writes
  obtain ⟨⟨initial, sample, -, holds, -, color⟩, keeps⟩ := (pixels 1 1).2 inside
  rw [last] at color
  exact ⟨inside, notAccepted, (attempts refused).2 notAccepted, ⟨sample, holds, color⟩, inside', apart,
    keeps elsewhere inside' apart⟩

end GrayImage

end EvoRaster
