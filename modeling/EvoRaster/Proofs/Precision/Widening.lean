import EvoRaster.Proofs.Precision.Packing

/-!
Contract: widening a single-precision number loses nothing.

Owns:
- rounding of numbers that a format can hold as they are, with more or with fewer digits than it asks for;
- `narrow_widen`, and with it that storing a number twice is storing it once.
-/

namespace EvoRaster.Numeric

open Float.Model (Format UnpackedFloat totalExponent)
open Float.Model.UnpackedFloat

/-! ## Exact rounding -/

theorem log2_mul_two_pow {significand : Nat} (positive : 0 < significand) (shift : Nat) :
    (significand * 2 ^ shift).log2 = significand.log2 + shift := by
  induction shift with
  | zero => rw [Nat.pow_zero, Nat.mul_one, Nat.add_zero]
  | succ shift inductionHypothesis =>
      have nonzero : significand * 2 ^ shift ≠ 0 :=
        Nat.ne_of_gt (Nat.mul_pos positive (Nat.two_pow_pos shift))
      rw [Nat.pow_succ, ← Nat.mul_assoc, Nat.mul_comm _ 2, Nat.log2_two_mul nonzero,
        inductionHypothesis, Nat.add_assoc]

/-- Digits that are moved from the exponent into the significand do not change the size of a number. -/
theorem totalExponent_scaled {significand : Nat} (positive : 0 < significand) (exponent : Int)
    (shift : Nat) :
    totalExponent (significand * 2 ^ shift) (exponent - shift) =
      totalExponent significand exponent := by
  simp only [totalExponent, log2_mul_two_pow positive]
  omega

/-- Dropping digits that are all zero is exact. -/
private theorem shiftRight_exact (significand shift : Nat) :
    (⟨significand * 2 ^ shift, false, false⟩ : ExtendedMantissa) >>> shift =
      ⟨significand, false, false⟩ := by
  change shift.repeat ExtendedMantissa.shiftRightOne ⟨significand * 2 ^ shift, false, false⟩ = _
  induction shift generalizing significand with
  | zero => simp [Nat.repeat]
  | succ shift inductionHypothesis =>
      have regrouped : significand * 2 ^ (shift + 1) = significand * 2 * 2 ^ shift := by
        rw [Nat.pow_succ, Nat.mul_comm (2 ^ shift), Nat.mul_assoc]
      rw [Nat.repeat, regrouped, inductionHypothesis]
      simp [ExtendedMantissa.shiftRightOne]

section Exact

variable {format : Format} {significand : Nat} {exponent : Int}

theorem shiftToTargetExponent_exact (positive : 0 < significand)
    (target : exponent = format.targetExponent (totalExponent significand exponent)) (shift : Nat) :
    shiftToTargetExponent format (significand * 2 ^ shift) (exponent - shift) .exact =
      (⟨significand, false, false⟩, exponent) := by
  have amount : (exponent - (exponent - shift)).toNat = shift := by omega
  simp only [shiftToTargetExponent, shiftToExponent, totalExponent_scaled positive, ← target, amount,
    ExtendedMantissa.ofMantissaAndAccuracy, shiftRight_exact]
  congr 1
  omega

theorem roundWithAccuracy_exact (sign : Sign) (positive : 0 < significand)
    (target : exponent = format.targetExponent (totalExponent significand exponent)) (shift : Nat) :
    roundWithAccuracy format sign (significand * 2 ^ shift) (exponent - shift) .exact =
      .finite sign significand exponent positive := by
  have settled := shiftToTargetExponent_exact positive target 0
  simp only [Nat.pow_zero, Nat.mul_one, Int.natCast_zero, Int.sub_zero] at settled
  simp only [roundWithAccuracy, shiftToTargetExponent_exact positive target shift,
    ExtendedMantissa.roundedMantissa, ExtendedMantissa.accuracy, Accuracy.roundToNearestEven, settled]
  rw [dif_neg (Nat.ne_of_gt positive)]

/-- A number with more digits than the format asks for, all of them zero, is rounded to itself. -/
private theorem round_of_longer (sign : Sign) (positive : 0 < significand)
    (target : exponent = format.targetExponent (totalExponent significand exponent)) (shift : Nat) :
    UnpackedFloat.round format sign (significand * 2 ^ shift) (exponent - shift) =
      .finite sign significand exponent positive := by
  have amount : (exponent - shift - exponent).toNat = 0 := by omega
  simp only [UnpackedFloat.round, totalExponent_scaled positive, ← target, decreaseExponent, amount]
  simpa using roundWithAccuracy_exact sign positive target shift

/-- A number with fewer digits than the format asks for is filled up with zeros. -/
private theorem round_of_shorter (sign : Sign) (shift : Nat) (positive : 0 < significand)
    (target : exponent = format.targetExponent (totalExponent significand (exponent + shift))) :
    UnpackedFloat.round format sign significand (exponent + shift) =
      .finite sign (significand * 2 ^ shift) exponent (Nat.mul_pos positive (Nat.two_pow_pos shift)) := by
  have amount : (exponent + shift - exponent).toNat = shift := by omega
  have longer : 0 < significand * 2 ^ shift := Nat.mul_pos positive (Nat.two_pow_pos shift)
  have sameSize := totalExponent_scaled positive (exponent + shift) shift
  rw [Int.add_sub_cancel] at sameSize
  have rounded := roundWithAccuracy_exact sign longer (target.trans (by rw [sameSize])) 0
  rw [Nat.pow_zero, Nat.mul_one, Int.natCast_zero, Int.sub_zero] at rounded
  simp only [UnpackedFloat.round, ← target, decreaseExponent, amount, Int.add_sub_cancel,
    Nat.shiftLeft_eq]
  exact rounded

end Exact

/-! ## The two precisions -/

theorem targetExponent_single (size : Int) :
    Format.binary32.targetExponent size = max (size - 24) (-149) := rfl

theorem targetExponent_double (size : Int) :
    Format.binary64.targetExponent size = max (size - 53) (-1074) := rfl

private theorem canonical_single {sign : Sign} {significand : Nat} {exponent : Int}
    {positive : 0 < significand}
    (canonical : Canonical .binary32 (.finite sign significand exponent positive)) :
    exponent = max (significand.log2 + 1 + exponent - 24) (-149) ∧ exponent ≤ 104 := by
  rcases canonical with ⟨target, inRange⟩
  rw [targetExponent_single] at target
  have narrowed : (exponent + 127 + 23).toNat + 1 < 256 := inRange
  exact ⟨target, by omega⟩

/-- Double precision has room for every number of single precision. -/
theorem widened_canonical {sign : Sign} {significand : Nat} {exponent : Int}
    {positive : 0 < significand}
    (canonical : Canonical .binary32 (.finite sign significand exponent positive)) :
    ∃ (shift : Nat) (longer : 0 < significand * 2 ^ shift),
      roundTo .binary64 (.finite sign significand exponent positive) =
          .finite sign (significand * 2 ^ shift) (exponent - shift) longer ∧
        Canonical .binary64 (.finite sign (significand * 2 ^ shift) (exponent - shift) longer) := by
  rcases canonical_single canonical with ⟨target, bounded⟩
  have size := totalExponent_scaled positive exponent (52 - significand.log2)
  have longer : 0 < significand * 2 ^ (52 - significand.log2) :=
    Nat.mul_pos positive (Nat.two_pow_pos _)
  refine ⟨52 - significand.log2, longer, ?_, ?_⟩
  · have filled := @round_of_shorter .binary64 significand (exponent - (52 - significand.log2 : Nat))
      sign (52 - significand.log2) positive
      (by rw [Int.sub_add_cancel, targetExponent_double, totalExponent]; omega)
    rw [Int.sub_add_cancel] at filled
    exact filled
  · constructor
    · rw [size, targetExponent_double, totalExponent]
      omega
    · change (exponent - (52 - significand.log2 : Nat) + 1023 + 52).toNat + 1 < 2048
      omega

/-- Rounding to double precision and then to single precision restores a number of single precision. -/
theorem roundTo_roundTo {number : UnpackedFloat} (canonical : Canonical .binary32 number) :
    Canonical .binary64 (roundTo .binary64 number) ∧
      roundTo .binary32 (roundTo .binary64 number) = number := by
  cases number with
  | infinity | notANumber | zero => exact ⟨trivial, rfl⟩
  | finite sign significand exponent positive =>
      rcases widened_canonical canonical with ⟨shift, longer, widened, roomy⟩
      rw [widened]
      exact ⟨roomy, round_of_longer sign positive canonical.1 shift⟩

/-- Writing a decoded number of single precision restores it. -/
theorem model_pack_unpack (number : Float32.Model) : Float32.Model.pack number.unpack = number := by
  have written : UnpackedFloat.pack .binary32 number.unpack = number.toBits.toBitVec :=
    pack_unpack_of_valid number.valid
  rcases number with ⟨bits, valid⟩
  simp only [Float32.Model.pack, Float32.Model.mk.injEq]
  rw [written]

/-- Rounding a widened number to single precision restores it. -/
theorem narrow_widen (x : Float32) : narrow (widen x) = x := by
  have canonical : Canonical .binary32 x.toModel.unpack := canonical_unpack (by decide) _
  rcases roundTo_roundTo canonical with ⟨roomy, restored⟩
  have read : (widen x).toModel.unpack = roundTo .binary64 x.toModel.unpack :=
    unpack_pack (by decide) roomy
  rw [narrow, read, restored, model_pack_unpack]

/-- What is stored in single precision stays as it is when it is stored again. -/
theorem throughSingle_throughSingle (x : Float) :
    throughSingle (throughSingle x) = throughSingle x := by
  rw [throughSingle, throughSingle, narrow_widen]

end EvoRaster.Numeric
