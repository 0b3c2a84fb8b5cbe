import EvoRaster.Proofs.Precision.Arithmetic

/-!
Contract: doubles that stay in range.

Owns:
- `Represents`, what a double stands for, and the operations on doubles whose results are not too large;
- `Short`, the results that a double holds exactly;
- `Bounded`, doubles from zero to a power of two, and its laws;
- `Bounded.le_add`, by which sums do not get smaller;
- `Bounded.absorb`, by which small numbers can be added without end and never lead beyond the bound.
-/

namespace EvoRaster.Numeric

open Float.Model (Format UnpackedFloat totalExponent)
open Float.Model.UnpackedFloat

/-! ## What a double stands for -/

/-- The double is finite and stands for the real number. -/
def Represents (x : Float) (size : ℝ) : Prop := Written .binary64 size x.toModel.unpack

theorem value_of_written {format : Format} {number : UnpackedFloat} {size : ℝ}
    (written : Written format size number) : value number = (size : EReal) := by
  cases written with
  | zero sign => rfl
  | finite sign positive target => cases sign <;> rfl

/-- There is room for the exponents of numbers up to half of the largest ones. -/
theorem canonical_of_written {format : Format} (wide : 2 ≤ format.exponentBits) {number : UnpackedFloat}
    {size : ℝ} (written : Written format size number) (small : |size| ≤ 2 ^ format.exponentBias) :
    Canonical format number := by
  cases written with
  | zero sign => trivial
  | @finite sign significand exponent positive target =>
      refine ⟨target, ?_⟩
      have first : (2 : ℝ) ^ (totalExponent significand exponent - 1) ≤ 2 ^ (format.exponentBias : ℤ) := by
        have absolute : |signed sign (magnitude significand exponent)| = magnitude significand exponent := by
          cases sign <;> simp [signed, abs_of_pos (magnitude_pos positive exponent)]
        rw [absolute] at small
        rw [zpow_natCast]
        exact (two_pow_le_magnitude positive exponent).trans small
      have bound := (zpow_le_zpow_iff_right₀ one_lt_two).mp first
      have least := minExponent_biased format
      have halves := Nat.two_pow_pred_mul_two format.he
      have power : 2 ^ 1 ≤ 2 ^ (format.exponentBits - 1) := Nat.pow_le_pow_right (by decide) (by omega)
      simp only [totalExponent, Format.targetExponent, Format.mantissaBits, Format.exponentBias]
        at target bound least ⊢
      omega

theorem represents_pack {number : UnpackedFloat} {size : ℝ} (written : Written .binary64 size number)
    (small : |size| ≤ 2 ^ 1023) : Represents (.ofModel (.pack number)) size := by
  have read : (Float.ofModel (.pack number)).toModel.unpack = number :=
    unpack_pack (by decide) (canonical_of_written (by decide) written small)
  unfold Represents
  rw [read]
  exact written

namespace Represents

variable {x y : Float} {size size' : ℝ}

theorem add (represents : Represents x size) (represents' : Represents y size')
    (small : |rounded .binary64 (size + size')| ≤ 2 ^ 1023) :
    Represents (x + y) (rounded .binary64 (size + size')) :=
  represents_pack (add_written represents represents') small

theorem mul (represents : Represents x size) (represents' : Represents y size')
    (small : |rounded .binary64 (size * size')| ≤ 2 ^ 1023) :
    Represents (x * y) (rounded .binary64 (size * size')) :=
  represents_pack (mul_written represents represents') small

theorem div (represents : Represents x size) (represents' : Represents y size') (nonzero : size' ≠ 0)
    (small : |rounded .binary64 (size / size')| ≤ 2 ^ 1023) :
    Represents (x / y) (rounded .binary64 (size / size')) :=
  represents_pack (div_written represents represents' nonzero) small

theorem sub (represents : Represents x size) (represents' : Represents y size')
    (small : |rounded .binary64 (size - size')| ≤ 2 ^ 1023) :
    Represents (x - y) (rounded .binary64 (size - size')) :=
  represents_pack (sub_written represents represents') small

theorem neg (represents : Represents x size) (small : |size| ≤ 2 ^ 1023) :
    Represents (Float.neg x) (-size) :=
  represents_pack (neg_written represents) (by rwa [abs_neg])

theorem isNumber (represents : Represents x size) : IsNumber x := by
  rw [isNumber_iff]
  unfold Represents at represents
  rintro undefined
  rw [undefined] at represents
  cases represents

theorem valueOf_eq (represents : Represents x size) : valueOf x = size := value_of_written represents

theorem le_iff (represents : Represents x size) (represents' : Represents y size') : x ≤ y ↔ size ≤ size' := by
  rw [le_iff_valueOf, represents.valueOf_eq, represents'.valueOf_eq, EReal.coe_le_coe_iff]
  simp [represents.isNumber, represents'.isNumber]

theorem lt_iff (represents : Represents x size) (represents' : Represents y size') : x < y ↔ size < size' := by
  rw [lt_iff_valueOf, represents.valueOf_eq, represents'.valueOf_eq, EReal.coe_lt_coe_iff]
  simp [represents.isNumber, represents'.isNumber]

/-- Whatever stands for a real number is smaller than infinity. -/
theorem lt_of_infinity (represents : Represents x size) (infinite : y.toModel.unpack = .infinity .positive) :
    x < y := by
  refine lt_iff_valueOf.mpr ⟨represents.isNumber, isNumber_iff.mpr (by rw [infinite]; nofun), ?_⟩
  rw [represents.valueOf_eq, valueOf, infinite]
  exact EReal.coe_lt_top size

end Represents

/-! ## Bounded results -/

theorem rounded_bounds {size : ℝ} {power : Nat} (notNegative : 0 ≤ size) (atMost : size ≤ 2 ^ power) :
    0 ≤ rounded .binary64 size ∧ rounded .binary64 size ≤ 2 ^ power := by
  refine ⟨rounded_nonneg _ notNegative, ?_⟩
  rw [← zpow_natCast] at atMost ⊢
  apply rounded_le_two_pow
  · change (-1074 + 53 : ℤ) ≤ power + 1
    omega
  · have tiny : (0 : ℝ) ≤ 2 ^ (power - Format.binary64.mantissaBits - 1 : ℤ) := by positivity
    linarith

theorem abs_rounded_le {size : ℝ} (notNegative : 0 ≤ size) (small : size ≤ 2 ^ 1023) :
    |rounded .binary64 size| ≤ 2 ^ 1023 := by
  obtain ⟨lower, upper⟩ := rounded_bounds notNegative small
  rwa [abs_of_nonneg lower]

/-! ## Exact results -/

/-- The number has few enough digits for a double, in a unit that is not more than one. -/
inductive Short (x : ℝ) : Prop where
  | intro (count exponent : ℤ) (units : x = count * 2 ^ exponent) (digits : |count| < 2 ^ 53)
      (least : -1074 ≤ exponent) (fine : exponent ≤ 0)

namespace Short

variable {x : ℝ}

theorem rounded_eq (short : Short x) : rounded .binary64 x = x := by
  obtain ⟨count, exponent, units, digits, least, -⟩ := short
  exact rounded_of_short .binary64 units digits least

theorem abs_le (short : Short x) : |x| ≤ 2 ^ 1023 := by
  obtain ⟨count, exponent, units, digits, -, fine⟩ := short
  have counted : |(count : ℝ)| ≤ 2 ^ 53 := by exact_mod_cast digits.le
  have unit : (2 : ℝ) ^ exponent ≤ 1 := zpow_le_one_of_nonpos₀ one_le_two fine
  have positive : (0 : ℝ) < 2 ^ exponent := by positivity
  calc |x| = |(count : ℝ)| * 2 ^ exponent := by rw [units, abs_mul, abs_of_pos positive]
    _ ≤ 2 ^ 53 * 1 := by gcongr
    _ = 2 ^ 53 := mul_one _
    _ ≤ 2 ^ 1023 := pow_le_pow_right₀ one_le_two (by decide)

theorem of_units {count : Nat} {exponent : ℤ} (units : x = count * 2 ^ exponent) (digits : count < 2 ^ 53)
    (least : -1074 ≤ exponent) (fine : exponent ≤ 0) : Short x := by
  have digits' : |(count : ℤ)| < 2 ^ 53 := by
    rw [Nat.abs_cast]
    exact_mod_cast digits
  exact ⟨count, exponent, by rw [units, Int.cast_natCast], digits', least, fine⟩

private theorem of_natCast {count : Nat} (digits : count < 2 ^ 53) : Short count :=
  of_units (by rw [zpow_zero, mul_one]) digits (by decide) le_rfl

end Short

namespace Represents

variable {x y : Float} {size size' : ℝ}

theorem mul_exact (represents : Represents x size) (represents' : Represents y size')
    (short : Short (size * size')) : Represents (x * y) (size * size') := by
  have product := represents.mul represents' (by rw [short.rounded_eq]; exact short.abs_le)
  rwa [short.rounded_eq] at product

theorem div_exact (represents : Represents x size) (represents' : Represents y size') (nonzero : size' ≠ 0)
    (short : Short (size / size')) : Represents (x / y) (size / size') := by
  have quotient := represents.div represents' nonzero (by rw [short.rounded_eq]; exact short.abs_le)
  rwa [short.rounded_eq] at quotient

theorem sub_exact (represents : Represents x size) (represents' : Represents y size')
    (short : Short (size - size')) : Represents (x - y) (size - size') := by
  have difference := represents.sub represents' (by rw [short.rounded_eq]; exact short.abs_le)
  rwa [short.rounded_eq] at difference

end Represents

/-! ## Bounds -/

/-- The double stands for a number from zero to a power of two. -/
inductive Bounded (power : Nat) (x : Float) : Prop where
  | intro (size : ℝ) (represents : Represents x size) (notNegative : 0 ≤ size) (small : size ≤ 2 ^ power)

section Bounded

variable {x y : Float} {power power' : Nat}

theorem bounded_of_written {number : UnpackedFloat} {size : ℝ}
    (written : Written .binary64 (rounded .binary64 size) number) (notNegative : 0 ≤ size)
    (atMost : size ≤ 2 ^ power + 2 ^ (power - 54 : ℤ)) (inRange : power ≤ 1023) :
    Bounded power (.ofModel (.pack number)) := by
  have lower := rounded_nonneg .binary64 notNegative
  have upper : rounded .binary64 size ≤ 2 ^ (power : ℤ) := by
    apply rounded_le_two_pow
    · change (-1074 + 53 : ℤ) ≤ power + 1
      omega
    · change size ≤ 2 ^ (power : ℤ) + 2 ^ (power - 53 - 1 : ℤ)
      rw [zpow_natCast, sub_sub]
      exact atMost
  rw [zpow_natCast] at upper
  refine ⟨_, represents_pack written ?_, lower, upper⟩
  rw [abs_of_nonneg lower]
  exact upper.trans (pow_le_pow_right₀ one_le_two inRange)

theorem bounded_of_le {number : UnpackedFloat} {size : ℝ}
    (written : Written .binary64 (rounded .binary64 size) number) (notNegative : 0 ≤ size)
    (atMost : size ≤ 2 ^ power) (inRange : power ≤ 1023) : Bounded power (.ofModel (.pack number)) := by
  apply bounded_of_written written notNegative _ inRange
  have tiny : (0 : ℝ) ≤ 2 ^ (power - 54 : ℤ) := by positivity
  linarith

theorem Bounded.isNumber (bounded : Bounded power x) : IsNumber x := by
  obtain ⟨size, represents, -⟩ := bounded
  exact represents.isNumber

theorem Bounded.mono (bounded : Bounded power x) (larger : power ≤ power') : Bounded power' x := by
  obtain ⟨size, represents, lower, upper⟩ := bounded
  exact ⟨size, represents, lower, upper.trans (pow_le_pow_right₀ one_le_two larger)⟩

theorem Bounded.add (bounded : Bounded power x) (bounded' : Bounded power y) (inRange : power < 1023) :
    Bounded (power + 1) (x + y) := by
  obtain ⟨size, represents, lower, upper⟩ := bounded
  obtain ⟨size', represents', lower', upper'⟩ := bounded'
  apply bounded_of_le (add_written represents represents') (by positivity) _ inRange
  rw [pow_succ]
  linarith

/-- A sum is not less than its terms. -/
theorem Bounded.le_add (bounded : Bounded power x) (bounded' : Bounded power' y) (inRange : power < 1023)
    (inRange' : power' < 1023) : x ≤ x + y ∧ y ≤ x + y := by
  obtain ⟨size, represents, lower, upper⟩ := bounded
  obtain ⟨size', represents', lower', upper'⟩ := bounded'
  have half : size ≤ 2 ^ 1022 := upper.trans (pow_le_pow_right₀ one_le_two (by omega))
  have half' : size' ≤ 2 ^ 1022 := upper'.trans (pow_le_pow_right₀ one_le_two (by omega))
  have small : size + size' ≤ 2 ^ 1023 :=
    calc size + size' ≤ 2 ^ 1022 + 2 ^ 1022 := add_le_add half half'
      _ = 2 ^ 1023 := by rw [← two_mul, ← pow_succ']
  have sum := represents.add represents' (abs_rounded_le (add_nonneg lower lower') small)
  rw [represents.le_iff sum, represents'.le_iff sum]
  constructor
  · calc size = rounded .binary64 size := (rounded_of_written represents).symm
      _ ≤ rounded .binary64 (size + size') := rounded_mono _ (le_add_of_nonneg_right lower')
  · calc size' = rounded .binary64 size' := (rounded_of_written represents').symm
      _ ≤ rounded .binary64 (size + size') := rounded_mono _ (le_add_of_nonneg_left lower)

/-- A number that is much smaller than the bound does not lead beyond it. -/
theorem Bounded.absorb (bounded : Bounded power x) (bounded' : Bounded power' y)
    (tiny : power' + 54 ≤ power) (inRange : power ≤ 1023) : Bounded power (x + y) := by
  obtain ⟨size, represents, lower, upper⟩ := bounded
  obtain ⟨size', represents', lower', upper'⟩ := bounded'
  apply bounded_of_written (add_written represents represents') (by positivity) _ inRange
  have small : (2 : ℝ) ^ power' ≤ 2 ^ (power - 54 : ℤ) := by
    rw [← zpow_natCast]
    exact zpow_le_zpow_right₀ one_le_two (by omega)
  linarith

theorem Bounded.mul (bounded : Bounded power x) (bounded' : Bounded power' y)
    (inRange : power + power' ≤ 1023) : Bounded (power + power') (x * y) := by
  obtain ⟨size, represents, lower, upper⟩ := bounded
  obtain ⟨size', represents', lower', upper'⟩ := bounded'
  apply bounded_of_le (mul_written represents represents') (by positivity) _ inRange
  rw [pow_add]
  gcongr

theorem Bounded.div (bounded : Bounded power x) {size' : ℝ} (represents' : Represents y size')
    (atLeastOne : 1 ≤ size') (inRange : power ≤ 1023) : Bounded power (x / y) := by
  obtain ⟨size, represents, lower, upper⟩ := bounded
  apply bounded_of_le (div_written represents represents' (by positivity)) (by positivity) _ inRange
  exact (div_le_self lower atLeastOne).trans upper

end Bounded

/-! ## Whole numbers -/

/-- A number that is read as whole units. -/
theorem represents_of_read {x : Float} {sign : Sign} {significand : Nat} {exponent : Int} {size : ℝ}
    {positive : 0 < significand} (read : x.toModel.unpack = .finite sign significand exponent positive)
    (stands : signed sign (magnitude significand exponent) = size) : Represents x size := by
  have canonical := canonical_toModel x
  rw [read] at canonical
  unfold Represents
  rw [read, ← stands]
  exact .finite sign positive canonical.1

theorem represents_one : Represents (Float.ofBits 0x3FF0000000000000) 1 :=
  represents_of_read
    (show (Float.ofBits 0x3FF0000000000000).toModel.unpack = .finite .positive (2 ^ 52) (-52) (by decide) from rfl)
    (by norm_num [signed, magnitude])

namespace Double

theorem represents_zero : Represents 0 0 := .zero .positive

theorem represents_one : Represents 1 1 :=
  represents_of_read (show (1 : Float).toModel.unpack = .finite .positive (2 ^ 52) (-52) (by decide) from rfl)
    (by norm_num [signed, magnitude])

theorem represents_neg_one : Represents (-1) (-1) :=
  represents_of_read (show (-1 : Float).toModel.unpack = .finite .negative (2 ^ 52) (-52) (by decide) from rfl)
    (by norm_num [signed, magnitude])

theorem represents_two : Represents 2 2 :=
  represents_of_read (show (2 : Float).toModel.unpack = .finite .positive (2 ^ 52) (-51) (by decide) from rfl)
    (by norm_num [signed, magnitude])

end Double

section OfNat

variable {count power : Nat}

/-- Whole numbers below two to the 53 are converted and multiplied by one. -/
private theorem represents_ofNat_short (short : count < 2 ^ 53) (small : (count : ℝ) ≤ 2 ^ 1023) :
    Represents (count.toUInt64.toFloat * Float.ofBits 0x3FF0000000000000) (rounded .binary64 count) := by
  have inRange := abs_rounded_le count.cast_nonneg small
  have kept : count.toUInt64.toNat = count := by
    rw [Nat.toUInt64, UInt64.toNat_ofNat']
    exact Nat.mod_eq_of_lt (short.trans (by decide))
  have whole : Represents count.toUInt64.toFloat (rounded .binary64 count) := by
    have written := normalize_written .binary64 (count.toUInt64.toNat : Int) 0 .positive
    rw [Int.cast_natCast, zpow_zero, mul_one] at written
    have read : Represents count.toUInt64.toFloat (rounded .binary64 count.toUInt64.toNat) :=
      represents_pack written (by rwa [kept])
    rwa [kept] at read
  have product := whole.mul represents_one (by rwa [mul_one, rounded_of_written whole])
  rwa [mul_one, rounded_of_written whole] at product

/-- Other whole numbers are multiplied by the power of ten that is one. -/
private theorem represents_ofNat_long (long : 2 ^ 53 ≤ count) (small : (count : ℝ) ≤ 2 ^ 1023) :
    Represents (Float.ofModel (Float.Model.ofScientific count 0)) (rounded .binary64 count) := by
  have positive : 0 < count := (Nat.two_pow_pos 53).trans_le long
  have shifted : 0 < count <<< 53 := by
    rw [Nat.shiftLeft_eq]
    exact Nat.mul_pos positive (Nat.two_pow_pos 53)
  have product : Written .binary64 (rounded .binary64
        (signed .positive (magnitude (count <<< 53) (-53)) * signed .positive (magnitude 1 0)))
      (UnpackedFloat.mul .binary64 (.finite .positive (count <<< 53) (-53) shifted)
        (.finite .positive 1 0 Nat.one_pos)) := by
    apply mul_finite_written
    rw [mul_one, targetExponent_double, totalExponent, Nat.shiftLeft_eq, log2_mul_two_pow positive]
    omega
  have size : signed .positive (magnitude (count <<< 53) (-53)) * signed .positive (magnitude 1 0) =
      count := by
    rw [signed, signed, magnitude, magnitude, Nat.shiftLeft_eq]
    push_cast
    norm_num [mul_assoc]
  rw [size] at product
  have unfolded : UnpackedFloat.ofScientific .binary64 count 0 =
      UnpackedFloat.mul .binary64 (.finite .positive (count <<< 53) (-53) shifted)
        (.finite .positive 1 0 Nat.one_pos) := by
    have wide : (0 : Int) ≤ 2 ^ Format.binary64.exponentBits := by positivity
    rw [UnpackedFloat.ofScientific, dif_neg positive.ne', if_neg (by decide), if_neg (by omega),
      if_pos le_rfl]
    rfl
  rw [← unfolded] at product
  exact represents_pack product (abs_rounded_le count.cast_nonneg small)

theorem represents_ofNat (small : (count : ℝ) ≤ 2 ^ 1023) :
    Represents (Float.ofNat count) (rounded .binary64 count) := by
  show Represents (Float.ofScientific count false 0) _
  unfold Float.ofScientific
  split
  · rename_i short
    exact represents_ofNat_short short.1 small
  · rename_i long
    exact represents_ofNat_long (by omega) small

/-- Whole numbers below two to the 53 are converted exactly. -/
theorem represents_natCast (digits : count < 2 ^ 53) : Represents (Float.ofNat count) count := by
  have short := Short.of_natCast digits
  have counted := represents_ofNat ((le_abs_self _).trans short.abs_le)
  rwa [short.rounded_eq] at counted

theorem bounded_ofNat (atMost : count ≤ 2 ^ power) (inRange : power ≤ 1023) :
    Bounded power (Float.ofNat count) := by
  have atMost' : (count : ℝ) ≤ 2 ^ power := by exact_mod_cast atMost
  have small := atMost'.trans (pow_le_pow_right₀ one_le_two inRange)
  obtain ⟨notNegative, below⟩ := rounded_bounds count.cast_nonneg atMost'
  exact ⟨_, represents_ofNat small, notNegative, below⟩

theorem one_le_rounded (positive : 0 < count) : 1 ≤ rounded .binary64 count := by
  have one : rounded .binary64 1 = 1 := rounded_of_written represents_one
  rw [← one]
  apply rounded_mono
  exact_mod_cast positive

end OfNat

end EvoRaster.Numeric
