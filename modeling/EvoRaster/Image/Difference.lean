import EvoRaster.Image.Gray

/-!
Contract: how far a generated image is from the goal.

Owns:
- the squared difference, a sum of 64-bit integers;
- the perceptual difference, for which every pixel counts with its own distance and with the mean distance of
  the rings around it.

The perceptual difference is written for any arithmetic, in a fixed order of operations. Pixels are visited row by
row, and so are the members of a ring. Members outside the image are left out, and a ring without members adds
nothing.
-/

namespace EvoRaster

/-! ## Squared difference -/

def squaredDistance (left right : UInt8) : Int64 :=
  let distance := Int64.ofNat left.toNat - Int64.ofNat right.toNat
  distance * distance

def GrayImage.squaredDifference (goal generated : GrayImage) : Except ImageError Int := do
  goal.checkSameSize generated
  return ((goal.samples.toList.zip generated.samples.toList).foldl
    (fun total pair => total + squaredDistance pair.1 pair.2) 0).toInt

/-! ## Arithmetic -/

/-- The operations that the perceptual difference is computed with. -/
structure Arithmetic (α : Type) where
  zero : α
  add : α → α → α
  mul : α → α → α
  div : α → α → α
  ofNat : Nat → α

namespace Arithmetic

def double : Arithmetic Float where
  zero := 0
  add := (· + ·)
  mul := (· * ·)
  div := (· / ·)
  ofNat := Float.ofNat

variable {α : Type} (arithmetic : Arithmetic α)

def cube (value : α) : α := arithmetic.mul (arithmetic.mul value value) value

end Arithmetic

/-! ## Rings -/

/-- The weight of a pixel itself and of the rings at distance one, two and so on. -/
structure RingWeights (α : Type) where
  own : α
  rings : List α

/-- The weights of the perceptual difference, in sixteenths: seven, five, three and one. -/
def RingWeights.sixteenths {α : Type} (arithmetic : Arithmetic α) : RingWeights α :=
  let sixteenth := fun count => arithmetic.div (arithmetic.ofNat count) (arithmetic.ofNat 16)
  { own := sixteenth 7, rings := [sixteenth 5, sixteenth 3, sixteenth 1] }

abbrev Plane (α : Type) (width height : Nat) := Vector α (width * height)

/-- The members of a ring seen so far: their sum and their number. -/
structure Tally (α : Type) where
  total : α
  count : Nat

namespace Plane

variable {α : Type} {width height : Nat}

def pixel (plane : Plane α width height) (x : Fin width) (y : Fin height) : α :=
  plane[pixelPosition x y]

/-- A step of the square of side `2 * distance + 1` is on its border. -/
def onBorder (distance across down : Nat) : Bool :=
  across == 0 || across == 2 * distance || down == 0 || down == 2 * distance

/-- Adds the members of a ring that lie in one row. The row is `down` steps below the top of the ring. -/
def tallyRow (arithmetic : Arithmetic α) (plane : Plane α width height) (x distance down : Nat)
    (row : Fin height) (tally : Tally α) : Tally α :=
  (List.range (2 * distance + 1)).foldl
    (fun tally across =>
      if onBorder distance across down then
        if column : distance ≤ x + across ∧ x + across - distance < width then
          { total := arithmetic.add tally.total (plane.pixel ⟨x + across - distance, column.2⟩ row)
            count := tally.count + 1 }
        else tally
      else tally)
    tally

def tallyRing (arithmetic : Arithmetic α) (plane : Plane α width height) (x y distance : Nat) :
    Tally α :=
  (List.range (2 * distance + 1)).foldl
    (fun tally down =>
      if row : distance ≤ y + down ∧ y + down - distance < height then
        plane.tallyRow arithmetic x distance down ⟨y + down - distance, row.2⟩ tally
      else tally)
    { total := arithmetic.zero, count := 0 }

/-- Adds the cubed, weighted mean of a ring, if the ring has members. -/
def addRing (arithmetic : Arithmetic α) (plane : Plane α width height) (x y : Nat)
    (partialError : α) (weight : α) (distance : Nat) : α :=
  let tally := plane.tallyRing arithmetic x y distance
  if tally.count = 0 then
    partialError
  else
    let mean := arithmetic.div tally.total (arithmetic.ofNat tally.count)
    arithmetic.add partialError (arithmetic.cube (arithmetic.mul weight mean))

def pixelError (arithmetic : Arithmetic α) (weights : RingWeights α)
    (plane : Plane α width height) (x : Fin width) (y : Fin height) : α :=
  (weights.rings.zipIdx 1).foldl
    (fun partialError (weight, distance) =>
      plane.addRing arithmetic x y partialError weight distance)
    (arithmetic.cube (arithmetic.mul weights.own (plane.pixel x y)))

def totalError (arithmetic : Arithmetic α) (weights : RingWeights α)
    (plane : Plane α width height) : α :=
  (List.finRange height).foldl
    (fun total y =>
      (List.finRange width).foldl
        (fun total x => arithmetic.add total (plane.pixelError arithmetic weights x y))
        total)
    arithmetic.zero

end Plane

/-! ## Perceptual difference -/

def sampleDistance (left right : UInt8) : Nat :=
  (left.toNat - right.toNat) + (right.toNat - left.toNat)

namespace GrayImage

def distances {α : Type} (arithmetic : Arithmetic α) (goal generated : GrayImage)
    (same : goal.pixels = generated.pixels) : Plane α goal.width goal.height :=
  Vector.ofFn fun position =>
    arithmetic.ofNat (sampleDistance goal.samples[position] (generated.samples.get (position.cast same)))

def perceptualDifferenceIn {α : Type} (arithmetic : Arithmetic α) (goal generated : GrayImage) :
    Except ImageError α := do
  if same : goal.width = generated.width ∧ goal.height = generated.height then
    return (goal.distances arithmetic generated (by simp [pixels, same])).totalError arithmetic
      (RingWeights.sixteenths arithmetic)
  else
    throw (.sizeMismatch goal.width goal.height generated.width generated.height)

def perceptualDifference (goal generated : GrayImage) : Except ImageError Float :=
  goal.perceptualDifferenceIn Arithmetic.double generated

end GrayImage

end EvoRaster
