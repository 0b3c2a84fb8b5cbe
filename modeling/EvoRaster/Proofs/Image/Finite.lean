import EvoRaster.Proofs.Outcome.Except
import EvoRaster.Proofs.Precision.Range
import EvoRaster.Search.State

/-!
Contract: errors are finite.

Owns:
- the bounds on what the perceptual difference adds up, from a ring to a pixel and to the whole image;
- `difference_lt_infinite` and `programError_lt_infinite`: an error that is known is less than infinity, by
  either model and for images of any size.

The sums have no bound on the number of their terms. They stay in range because a large sum absorbs its terms.
-/

namespace EvoRaster

open Numeric

/-! ## Double arithmetic -/

theorem bounded_zero (power : Nat) (inRange : power ≤ 1023) : Bounded power Arithmetic.double.zero :=
  bounded_ofNat (Nat.zero_le _) inRange

theorem bounded_cube {x : Float} {power : Nat} (bounded : Bounded power x) (inRange : power * 3 ≤ 1023) :
    Bounded (power * 3) (Arithmetic.double.cube x) := by
  have square := bounded.mul bounded (by omega)
  have cube := square.mul bounded (by omega)
  exact cube.mono (by omega)

/-- A bounded number divided by a positive whole number. -/
theorem bounded_quotient {x : Float} {power count : Nat} (bounded : Bounded power x) (inRange : power ≤ 1023)
    (positive : 0 < count) (few : count ≤ 2 ^ 8) :
    Bounded power (Arithmetic.double.div x (Arithmetic.double.ofNat count)) := by
  have small : (count : ℝ) ≤ 2 ^ 1023 := by
    have few' : (count : ℝ) ≤ 2 ^ 8 := by exact_mod_cast few
    exact few'.trans (pow_le_pow_right₀ one_le_two (by decide))
  exact bounded.div (represents_ofNat small) (one_le_rounded positive) inRange

/-! ## Rings -/

/-- The sum of a ring is bounded, and so is the number of its members. -/
structure Tally.Limited (tally : Tally Float) (members : Nat) : Prop where
  total : Bounded 62 tally.total
  count : tally.count ≤ members

theorem Tally.Limited.mono {tally : Tally Float} {members larger : Nat} (limited : tally.Limited members)
    (more : members ≤ larger) : tally.Limited larger where
  total := limited.total
  count := limited.count.trans more

/-- Steps that add few members each add few members for each of them. -/
theorem Tally.limited_foldl {step : Tally Float → Nat → Tally Float} {tally : Tally Float}
    {members gain : Nat} (limited : tally.Limited members)
    (each : ∀ tally members index, tally.Limited members → (step tally index).Limited (members + gain))
    (steps : Nat) : ((List.range steps).foldl step tally).Limited (members + steps * gain) := by
  induction steps with
  | zero => simpa using limited
  | succ steps inductionHypothesis =>
      rw [List.range_succ, List.foldl_append, Nat.succ_mul, ← Nat.add_assoc]
      exact each _ _ steps inductionHypothesis

section Rings

variable {width height : Nat} {plane : Plane Float width height}

/-- The distances of a plane are those of bytes. -/
def Plane.Small (plane : Plane Float width height) : Prop :=
  ∀ (x : Fin width) (y : Fin height), Bounded 8 (plane.pixel x y)

private theorem limited_tallyRow (small : plane.Small) (x distance down : Nat) (row : Fin height)
    {tally : Tally Float} {members : Nat} (limited : tally.Limited members) :
    (plane.tallyRow Arithmetic.double x distance down row tally).Limited
      (members + (2 * distance + 1) * 1) := by
  unfold Plane.tallyRow
  apply Tally.limited_foldl limited
  intro tally members across limited
  split
  · split
    · exact ⟨limited.total.absorb (small _ row) (by decide) (by decide), Nat.succ_le_succ limited.count⟩
    · exact limited.mono (Nat.le_succ _)
  · exact limited.mono (Nat.le_succ _)

theorem limited_tallyRing (small : plane.Small) (x y distance : Nat) :
    (plane.tallyRing Arithmetic.double x y distance).Limited
      (0 + (2 * distance + 1) * ((2 * distance + 1) * 1)) := by
  have empty : Tally.Limited { total := Arithmetic.double.zero, count := 0 } 0 :=
    { total := bounded_zero 62 (by decide), count := Nat.le_refl 0 }
  unfold Plane.tallyRing
  apply Tally.limited_foldl empty
  intro tally members down limited
  split
  · exact limited_tallyRow small x distance down _ limited
  · exact limited.mono (Nat.le_add_right _ _)

/-- A ring adds at most the cube of eight times its mean. -/
theorem bounded_ringCube (small : plane.Small) (x y : Nat) {weight : Float} {distance : Nat} (near : distance ≤ 3)
    (light : Bounded 3 weight) (nonempty : (plane.tallyRing Arithmetic.double x y distance).count ≠ 0) :
    Bounded 195 (Arithmetic.double.cube (Arithmetic.double.mul weight
      (Arithmetic.double.div (plane.tallyRing Arithmetic.double x y distance).total
        (Arithmetic.double.ofNat (plane.tallyRing Arithmetic.double x y distance).count)))) := by
  have limited := limited_tallyRing small x y distance
  have few : 0 + (2 * distance + 1) * ((2 * distance + 1) * 1) ≤ 7 * 7 := by
    rw [Nat.zero_add, Nat.mul_one]
    exact Nat.mul_le_mul (by omega) (by omega)
  have mean := bounded_quotient limited.total (by decide) (Nat.pos_of_ne_zero nonempty)
    (limited.count.trans (few.trans (by decide)))
  exact bounded_cube (light.mul mean (by decide)) (by decide)

private theorem bounded_addRing (small : plane.Small) (x y : Nat) {partialError weight : Float}
    {distance power : Nat} (near : distance ≤ 3) (bounded : Bounded power partialError)
    (light : Bounded 3 weight) (large : 195 ≤ power) (inRange : power < 1023) :
    Bounded (power + 1) (plane.addRing Arithmetic.double x y partialError weight distance) := by
  simp only [Plane.addRing]
  split
  · exact bounded.mono (Nat.le_succ power)
  · rename_i nonempty
    exact bounded.add ((bounded_ringCube small x y near light nonempty).mono large) inRange

/-- A ring takes nothing away. -/
private theorem le_addRing (small : plane.Small) (x y : Nat) {partialError weight : Float} {distance power : Nat}
    (near : distance ≤ 3) (bounded : Bounded power partialError) (light : Bounded 3 weight)
    (inRange : power < 1023) :
    partialError ≤ plane.addRing Arithmetic.double x y partialError weight distance := by
  simp only [Plane.addRing]
  split
  · exact Double.le_refl bounded.isNumber
  · rename_i nonempty
    exact (bounded.le_add (bounded_ringCube small x y near light nonempty) inRange (by decide)).1

private theorem bounded_sixteenth (count : Nat) (few : count ≤ 2 ^ 3) :
    Bounded 3 (Arithmetic.double.div (Arithmetic.double.ofNat count) (Arithmetic.double.ofNat 16)) :=
  bounded_quotient (bounded_ofNat few (by decide)) (by decide) (by decide) (by decide)

/-- The error of a pixel is bounded, and not less than what the pixel itself contributes. -/
theorem pixelError_ensures (small : plane.Small) (x : Fin width) (y : Fin height) :
    Bounded 198 (plane.pixelError Arithmetic.double (RingWeights.sixteenths Arithmetic.double) x y) ∧
      Arithmetic.double.cube (Arithmetic.double.mul (RingWeights.sixteenths Arithmetic.double).own (plane.pixel x y)) ≤
        plane.pixelError Arithmetic.double (RingWeights.sixteenths Arithmetic.double) x y := by
  have near : ∀ distance ∈ [1, 2, 3], distance ≤ 3 := by decide
  have light (count : Nat) (few : count ≤ 2 ^ 3) := bounded_sixteenth count few
  have own := (light 7 (by decide)).mul (small x y) (by decide)
  have alone : Bounded 195 _ := (bounded_cube own (by decide)).mono (by decide)
  have first := bounded_addRing small x y (near 1 (by decide)) alone (light 5 (by decide)) (by decide) (by decide)
  have second := bounded_addRing small x y (near 2 (by decide)) first (light 3 (by decide)) (by decide) (by decide)
  have third := bounded_addRing small x y (near 3 (by decide)) second (light 1 (by decide)) (by decide) (by decide)
  refine ⟨third, ?_⟩
  have grown := le_addRing small x y (near 1 (by decide)) alone (light 5 (by decide)) (by decide)
  have grown' := le_addRing small x y (near 2 (by decide)) first (light 3 (by decide)) (by decide)
  have grown'' := le_addRing small x y (near 3 (by decide)) second (light 1 (by decide)) (by decide)
  exact Double.le_trans grown (Double.le_trans grown' grown'')

theorem bounded_pixelError (small : plane.Small) (x : Fin width) (y : Fin height) :
    Bounded 198 (plane.pixelError Arithmetic.double (RingWeights.sixteenths Arithmetic.double) x y) :=
  (pixelError_ensures small x y).1

theorem bounded_totalError (small : plane.Small) :
    Bounded 252 (plane.totalError Arithmetic.double (RingWeights.sixteenths Arithmetic.double)) := by
  unfold Plane.totalError
  apply List.foldlRecOn (motive := Bounded 252) _ _ (bounded_zero 252 (by decide))
  intro total bounded y _
  apply List.foldlRecOn (motive := Bounded 252) _ _ bounded
  intro total bounded x _
  exact bounded.absorb (bounded_pixelError small x y) (by decide) (by decide)

end Rings

/-! ## Differences -/

section Difference

variable {goal generated : GrayImage} {error : Float}

theorem distances_small (same : goal.pixels = generated.pixels) :
    (goal.distances Arithmetic.double generated same).Small := by
  intro x y
  have byte : ∀ left right : UInt8, sampleDistance left right ≤ 2 ^ 8 := by
    intro left right
    have upper := left.toNat_lt
    have upper' := right.toNat_lt
    unfold sampleDistance
    omega
  simp only [Plane.pixel, GrayImage.distances, Vector.getElem_ofFn, Fin.getElem_fin]
  exact bounded_ofNat (byte _ _) (by decide)

/-- Every whole number of 64 bits is less than infinity. -/
private theorem ofInt_lt_infinite (whole : Int64) : Float.ofInt whole.toInt < infiniteError := by
  have lower := whole.le_toInt
  have upper := whole.toInt_lt
  generalize whole.toInt = number at *
  cases number with
  | ofNat count =>
      rw [Int.ofNat_eq_natCast] at upper
      obtain ⟨size, represents, -⟩ := bounded_ofNat (show count ≤ 2 ^ 63 by omega) (by decide)
      exact represents.lt_of_infinity rfl
  | negSucc count =>
      obtain ⟨size, represents, notNegative, atMost⟩ :=
        bounded_ofNat (show count + 1 ≤ 2 ^ 63 by omega) (by decide)
      have small : |size| ≤ 2 ^ 1023 := by
        rw [abs_of_nonneg notNegative]
        exact atMost.trans (pow_le_pow_right₀ one_le_two (by decide))
      exact (represents.neg small).lt_of_infinity rfl

theorem difference_lt_infinite {model : ErrorModel} (compared : goal.difference model generated = .ok error) :
    error < infiniteError := by
  cases model with
  | perceptual =>
      simp only [GrayImage.difference, GrayImage.perceptualDifference, GrayImage.perceptualDifferenceIn]
        at compared
      split at compared
      · cases compared
        obtain ⟨size, represents, -⟩ := bounded_totalError (distances_small _)
        exact represents.lt_of_infinity rfl
      · cases compared
  | squared =>
      simp only [GrayImage.difference, GrayImage.squaredDifference] at compared
      cases sized : goal.checkSameSize generated with
      | error cause => simp [sized] at compared
      | ok _ =>
          simp only [sized, ok_bind] at compared
          cases compared
          exact ofInt_lt_infinite _

theorem programError_lt_infinite {model : ErrorModel} {program : Program}
    (evaluated : goal.programError model program = .ok error) : error < infiniteError := by
  unfold GrayImage.programError at evaluated
  cases rendered : goal.renderAlike program with
  | error cause => simp [rendered] at evaluated
  | ok generated =>
      rw [rendered, ok_bind, mapError_eq_ok_iff] at evaluated
      exact difference_lt_infinite evaluated

end Difference

end EvoRaster
