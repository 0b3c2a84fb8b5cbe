import Mathlib
import EvoRaster.Numeric.Precision

/-!
Contract: numbers in the fields of a floating-point format.

Owns:
- `Canonical`, the decoded numbers that a format writes without rounding them;
- `canonical_unpack`, by which whatever is decoded is canonical;
- `unpack_pack`: canonical numbers are decoded as they were encoded.

Does not own: what rounding does to a number that is not canonical.
-/

namespace EvoRaster.Numeric

open Float.Model (Format UnpackedFloat totalExponent)
open Float.Model.UnpackedFloat

/-! ## Numbers that need no rounding -/

/-- A decoded number that a format writes without rounding it: its exponent is the one that the format
asks for, and is not too large for the exponent field. -/
def Canonical (format : Format) : UnpackedFloat → Prop
  | .finite _ significand exponent _ =>
      exponent = format.targetExponent (totalExponent significand exponent) ∧
        (exponent + format.exponentBias + format.mantissaBitsWithoutImplicit).toNat + 1 <
          2 ^ format.exponentBits
  | _ => True

theorem minExponent_biased (format : Format) :
    format.minExponent + format.exponentBias + format.mantissaBitsWithoutImplicit = 1 := by
  have positive : 0 < 2 ^ (format.exponentBits - 1) := Nat.two_pow_pos _
  have power : (2 : Int) ^ (format.exponentBits - 1) = (2 ^ (format.exponentBits - 1) : Nat) := by
    rw [Int.natCast_pow]
    rfl
  simp only [Format.minExponent, Format.exponentBias, Format.mantissaBits, power]
  omega

theorem toNat_one_append {width : Nat} (bits : BitVec width) :
    (1#1 ++ bits).toNat = 2 ^ width + bits.toNat := by
  rw [BitVec.toNat_append, ← Nat.shiftLeft_add_eq_or_of_lt bits.isLt, Nat.shiftLeft_eq,
    BitVec.toNat_one (by decide), Nat.one_mul]

/-- The digits of a number after its leading one make up the rest of its significand. -/
private theorem log2_one_append {width : Nat} (bits : BitVec width) :
    (1#1 ++ bits).toNat.log2 = width := by
  have below := bits.isLt
  have positive := Nat.two_pow_pos width
  rw [toNat_one_append, Nat.log2_eq_iff (by omega), Nat.pow_succ]
  omega

/-- An exponent field that marks neither the lowest numbers nor the special ones. -/
private theorem field_bounds {width : Nat} {field : BitVec width} (notAllOnes : field ≠ -1#(width))
    (notZero : field ≠ 0#(width)) : 0 < field.toNat ∧ field.toNat + 1 < 2 ^ width := by
  have below := field.isLt
  constructor
  · apply Nat.pos_of_ne_zero
    intro isZero
    exact notZero (BitVec.eq_of_toNat_eq (by rw [isZero, BitVec.toNat_ofNat, Nat.zero_mod]))
  · have smaller : field.toNat ≠ 2 ^ width - 1 := by
      intro allOnes
      rw [BitVec.neg_one_eq_allOnes] at notAllOnes
      exact notAllOnes (BitVec.eq_of_toNat_eq (by rw [allOnes, BitVec.toNat_allOnes]))
    omega

/-- What stands in the fields of a number can be written without rounding. -/
theorem canonical_unpack {format : Format} (wide : 2 ≤ format.exponentBits)
    (bits : BitVec format.numBits) : Canonical format (unpack format bits) := by
  have least := minExponent_biased format
  have power : 2 ^ 2 ≤ 2 ^ format.exponentBits := Nat.pow_le_pow_right (by decide) wide
  have below := (unpackMantissa bits).isLt
  have bounded := (unpackExponent bits).isLt
  rw [unpack]
  split
  · split <;> trivial
  · rename_i notSpecial
    split
    · rename_i lowest
      split
      · trivial
      · rename_i nonzero
        have positive : (unpackMantissa bits).toNat ≠ 0 := by
          intro isZero
          exact nonzero (BitVec.eq_of_toNat_eq (by simpa using isZero))
        have short : (unpackMantissa bits).toNat.log2 < format.mantissaBitsWithoutImplicit :=
          (Nat.log2_lt positive).mpr below
        simp only [Canonical, Format.targetExponent, totalExponent, Format.mantissaBits, lowest,
          BitVec.toNat_ofNat, Nat.zero_mod]
        constructor <;> omega
    · rename_i notLowest
      rcases field_bounds notSpecial notLowest with ⟨above, inRange⟩
      simp only [Canonical, Format.targetExponent, totalExponent, Format.mantissaBits,
        log2_one_append]
      constructor <;> omega

/-! ## Reading back what was written -/

theorem allOnes_ne_zero {format : Format} : (-1#(format.exponentBits)) ≠ 0#(format.exponentBits) := by
  intro equal
  have values := congrArg BitVec.toNat equal
  have power : 2 ^ 1 ≤ 2 ^ format.exponentBits := Nat.pow_le_pow_right (by decide) format.he
  rw [BitVec.neg_one_eq_allOnes, BitVec.toNat_allOnes, BitVec.toNat_ofNat, Nat.zero_mod] at values
  omega

/-- Fields with the lowest exponent hold a number below the first power of two. -/
private theorem unpack_lowest {format : Format} (sign : Sign) {significand : Nat} (positive : 0 < significand)
    (below : significand < 2 ^ format.mantissaBitsWithoutImplicit) :
    unpack format (packComponents format sign 0#_ (BitVec.ofNat _ significand)) =
      .finite sign significand format.minExponent positive := by
  have least := minExponent_biased format
  have read : (BitVec.ofNat format.mantissaBitsWithoutImplicit significand).toNat = significand := by
    rw [BitVec.toNat_ofNat, Nat.mod_eq_of_lt below]
  have notZero : BitVec.ofNat format.mantissaBitsWithoutImplicit significand ≠ 0#_ := by
    intro equal
    rw [equal, BitVec.toNat_ofNat, Nat.zero_mod] at read
    exact Nat.ne_of_lt positive read
  rw [unpack]
  simp only [unpackExponent_packComponents, unpackMantissa_packComponents,
    unpackSign_packComponents, Sign.ofBitVec_toBitVec]
  rw [if_neg allOnes_ne_zero.symm, if_true, dif_neg notZero]
  simp only [read, BitVec.toNat_ofNat, Nat.zero_mod,
    UnpackedFloat.finite.injEq, true_and]
  omega

/-- Fields with any other exponent hold a number whose leading bit is not written. -/
private theorem unpack_normal {format : Format} (sign : Sign) {significand biased : Nat}
    (positive : 0 < significand) (lower : 2 ^ format.mantissaBitsWithoutImplicit ≤ significand)
    (upper : significand < 2 ^ (format.mantissaBitsWithoutImplicit + 1)) (above : 0 < biased)
    (inRange : biased + 1 < 2 ^ format.exponentBits) :
    unpack format (packComponents format sign (BitVec.ofNat _ biased) (BitVec.ofNat _ significand)) =
      .finite sign significand
        (biased - (format.exponentBias + format.mantissaBitsWithoutImplicit)) positive := by
  have read : (BitVec.ofNat format.exponentBits biased).toNat = biased := by
    rw [BitVec.toNat_ofNat, Nat.mod_eq_of_lt (by omega)]
  have notAllOnes : BitVec.ofNat format.exponentBits biased ≠ -1#_ := by
    intro equal
    rw [equal, BitVec.neg_one_eq_allOnes, BitVec.toNat_allOnes] at read
    omega
  have notZero : BitVec.ofNat format.exponentBits biased ≠ 0#_ := by
    intro equal
    rw [equal, BitVec.toNat_ofNat, Nat.zero_mod] at read
    omega
  have restored : (1#1 ++ BitVec.ofNat format.mantissaBitsWithoutImplicit significand).toNat =
      significand := by
    rw [Nat.pow_succ] at upper
    rw [toNat_one_append, BitVec.toNat_ofNat, Nat.mod_eq_sub_mod lower,
      Nat.mod_eq_of_lt (by omega)]
    omega
  rw [unpack]
  simp only [unpackExponent_packComponents, unpackMantissa_packComponents,
    unpackSign_packComponents, Sign.ofBitVec_toBitVec]
  rw [if_neg notAllOnes, if_neg notZero]
  simp only [read, restored]

/-! ## Writing back what was read -/

/-- A number below the first power of two is written with the lowest exponent. -/
private theorem pack_lowest {format : Format} (wide : 2 ≤ format.exponentBits) (sign : Sign)
    {significand : Nat} (positive : 0 < significand)
    (below : significand < 2 ^ format.mantissaBitsWithoutImplicit) :
    pack format (.finite sign significand format.minExponent positive) =
      packComponents format sign 0#_ (BitVec.ofNat _ significand) := by
  have short : significand.log2 < format.mantissaBitsWithoutImplicit :=
    (Nat.log2_lt (Nat.ne_of_gt positive)).mpr below
  have power : 2 ^ 2 ≤ 2 ^ format.exponentBits := Nat.pow_le_pow_right (by decide) wide
  rw [pack, minExponent_biased, if_neg (by rw [Int.toNat_one]; omega),
    if_neg (by rw [Format.mantissaBits]; omega)]

/-- A number with as many digits as the format keeps is written without its leading one. -/
private theorem pack_normal {format : Format} (sign : Sign) {significand : Nat} {exponent : Int}
    (positive : 0 < significand) (full : significand.log2 = format.mantissaBitsWithoutImplicit)
    (inRange : (exponent + format.exponentBias + format.mantissaBitsWithoutImplicit).toNat + 1 <
      2 ^ format.exponentBits) :
    pack format (.finite sign significand exponent positive) =
      packComponents format sign
        (BitVec.ofNat _ (exponent + format.exponentBias + format.mantissaBitsWithoutImplicit).toNat)
        (BitVec.ofNat _ significand) := by
  rw [pack, if_neg (by omega), if_pos (by rw [Format.mantissaBits]; omega)]

/-- A number that a format writes without rounding is read back unchanged. -/
theorem unpack_pack {format : Format} (wide : 2 ≤ format.exponentBits) {number : UnpackedFloat}
    (canonical : Canonical format number) : unpack format (pack format number) = number := by
  cases number with
  | infinity sign =>
      simp [pack, packedInfinity, unpack, Sign.ofBitVec_toBitVec]
  | notANumber => exact unpack_packedNaN
  | zero sign =>
      simp [pack, packedZero, unpack, Sign.ofBitVec_toBitVec, allOnes_ne_zero.symm]
  | finite sign significand exponent positive =>
      rcases canonical with ⟨target, inRange⟩
      have least := minExponent_biased format
      have nonzero : significand ≠ 0 := Nat.ne_of_gt positive
      simp only [Format.targetExponent, totalExponent, Format.mantissaBits] at target
      by_cases full : significand.log2 = format.mantissaBitsWithoutImplicit
      · rcases (Nat.log2_eq_iff nonzero).mp full with ⟨lower, upper⟩
        rw [pack_normal sign positive full inRange,
          unpack_normal sign positive lower upper (by omega) inRange]
        congr 1
        omega
      · obtain rfl : exponent = format.minExponent := by omega
        have below := (Nat.log2_lt (k := format.mantissaBitsWithoutImplicit) nonzero).mp (by omega)
        rw [pack_lowest wide sign positive below, unpack_lowest sign positive below]

end EvoRaster.Numeric
