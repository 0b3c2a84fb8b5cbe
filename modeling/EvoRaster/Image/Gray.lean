import EvoRaster.Numeric.FromEnd

/-!
Contract: gray images.

Owns:
- the image, a row-major vector of samples whose length its type fixes;
- checked construction from integers, and the reading and writing of single samples.

`read` and `write` compute a flat position from the coordinates alone, so coordinates outside the image can name
a sample of another row, and flat positions below zero count from the end. `pixel?` looks at the coordinates first.
-/

namespace EvoRaster

/-- An image with one byte per pixel. -/
structure GrayImage where
  width : Nat
  height : Nat
  /-- The samples, row by row. -/
  samples : Vector UInt8 (width * height)
deriving DecidableEq

inductive ImageError where
  | sampleRange (value : Int)
  | sampleCount (expected : Int) (given : Nat)
  | negativeSize
  | noSample (position : Int) (samples : Nat)
  | noChannel (channel channels : Nat)
  | sizeMismatch (goalWidth goalHeight width height : Nat)
deriving DecidableEq, Repr

def ImageError.message : ImageError → String
  | .sampleRange value => s!"Python integer {value} out of bounds for uint8"
  | .sampleCount expected given => s!"Expected {expected} samples, got {given}"
  | .negativeSize => "negative dimensions are not allowed"
  | .noSample position samples =>
      s!"index {position} is out of bounds for axis 0 with size {samples}"
  | .noChannel channel channels =>
      s!"index {channel} is out of bounds for axis 2 with size {channels}"
  | .sizeMismatch goalWidth goalHeight width height =>
      s!"Image size mismatch: {goalWidth}x{goalHeight} vs {width}x{height}"

def sampleOf (value : Int) : Except ImageError UInt8 :=
  if 0 ≤ value ∧ value ≤ 255 then .ok (UInt8.ofNat value.toNat) else .error (.sampleRange value)

/-- The place of a pixel among the samples. -/
def pixelPosition {width height : Nat} (x : Fin width) (y : Fin height) : Fin (width * height) :=
  ⟨x.val + y.val * width, by
    calc x.val + y.val * width < width + y.val * width := Nat.add_lt_add_right x.isLt _
      _ = (y.val + 1) * width := by rw [Nat.succ_mul, Nat.add_comm]
      _ ≤ height * width := Nat.mul_le_mul_right _ y.isLt
      _ = width * height := Nat.mul_comm _ _⟩

namespace GrayImage

def pixels (image : GrayImage) : Nat := image.width * image.height

def black (width height : Nat) : GrayImage :=
  { width, height, samples := Vector.replicate _ 0 }

def ofSamples (width height : Nat) (samples : List UInt8) : Except ImageError GrayImage :=
  if counted : samples.length = width * height then
    .ok { width, height, samples := ⟨samples.toArray, by simpa using counted⟩ }
  else
    .error (.sampleCount (width * height : Nat) samples.length)

/-- The image of a size and samples given as integers; black if there are no samples. The samples are
checked before they are counted. A side below zero counts as no extent. -/
def create (width height : Int) : Option (List Int) → Except ImageError GrayImage
  | none =>
      if width * height < 0 then .error .negativeSize
      else .ok (black width.toNat height.toNat)
  | some values => do
      let samples ← values.mapM sampleOf
      if samples.length ≠ width * height then
        throw (.sampleCount (width * height) samples.length)
      else
        ofSamples width.toNat height.toNat samples

def pixel (image : GrayImage) (x : Fin image.width) (y : Fin image.height) : UInt8 :=
  image.samples[pixelPosition x y]

/-- The place that coordinates name, inside the image or not. -/
def locate (image : GrayImage) (x y : Int) : Except ImageError (Fin image.pixels) :=
  let position := x + y * image.width
  match position? image.pixels position with
  | some place => .ok place
  | none => .error (.noSample position image.pixels)

/-- The sample at the place that coordinates name. -/
def read (image : GrayImage) (x y : Int) : Except ImageError UInt8 := do
  let place ← image.locate x y
  return image.samples.get place

/-- Sets the sample at the place that coordinates name. The place is looked up before the color is
checked. -/
def write (image : GrayImage) (x y color : Int) : Except ImageError GrayImage := do
  let place ← image.locate x y
  let sample ← sampleOf color
  return { image with samples := image.samples.set place.val sample place.isLt }

/-- The sample of the pixel at the coordinates, if the image has such a pixel. -/
def pixel? (image : GrayImage) (x y : Int) : Option UInt8 :=
  if inside : 0 ≤ x ∧ 0 ≤ y ∧ x < image.width ∧ y < image.height then
    some (image.pixel ⟨x.toNat, by omega⟩ ⟨y.toNat, by omega⟩)
  else
    none

def rows (image : GrayImage) : List (List UInt8) :=
  (List.finRange image.height).map fun y =>
    (List.finRange image.width).map fun x => image.pixel x y

def sameSize (left right : GrayImage) : Bool :=
  left.width == right.width && left.height == right.height

def checkSameSize (goal generated : GrayImage) : Except ImageError Unit :=
  if goal.sameSize generated then .ok ()
  else .error (.sizeMismatch goal.width goal.height generated.width generated.height)

section SameSize

variable {goal generated : GrayImage}

theorem checkSameSize_of_same (same : goal.width = generated.width ∧ goal.height = generated.height) :
    goal.checkSameSize generated = .ok () := by
  rw [checkSameSize, if_pos (by simpa [sameSize] using same)]

theorem checkSameSize_of_differ (differ : ¬(goal.width = generated.width ∧ goal.height = generated.height)) :
    goal.checkSameSize generated =
      .error (.sizeMismatch goal.width goal.height generated.width generated.height) := by
  rw [checkSameSize, if_neg (by simpa [sameSize] using differ)]

end SameSize

/-- The goal on the left and the generated image on the right. The rows of both are joined, and the samples of all
rows are counted. -/
def beside (goal generated : GrayImage) : Except ImageError GrayImage := do
  goal.checkSameSize generated
  ofSamples (goal.width * 2) goal.height (List.zipWith (· ++ ·) goal.rows generated.rows).flatten

end GrayImage

end EvoRaster
