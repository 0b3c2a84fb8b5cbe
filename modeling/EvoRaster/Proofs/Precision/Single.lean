import EvoRaster.Numeric.Extremum
import EvoRaster.Proofs.Precision.Range

/-!
Contract: what single-precision numbers stand for.

Owns:
- the order of single-precision numbers;
- `Single.maxNum_cases` and `Single.minNum_cases`, the extremes of two of them;
- `Single.Represents`, with the operations on numbers that stay in range;
- `Single.toNat_toUInt8`, by which a number is cut off to a byte;
- `rounded_lt_one_iff`, the numbers that rounding keeps below one;
- `throughSingle_represents`, by which a double is rounded when it is stored in single precision.

Does not own: results that are too large for single precision.
-/

namespace EvoRaster.Numeric

open Float.Model (Format UnpackedFloat totalExponent)
open Float.Model.UnpackedFloat

/-! ## Order -/

namespace Single

/-- What a number in single precision stands for. -/
noncomputable def valueOf (x : Float32) : EReal := value x.toModel.unpack

/-- The number is not the undefined value. -/
def IsNumber (x : Float32) : Prop := x.isNaN = false

theorem canonical_toModel (x : Float32) : Canonical .binary32 x.toModel.unpack :=
  canonical_unpack (by decide) _

section Order

variable {x y : Float32}

theorem isNumber_iff : IsNumber x ↔ x.toModel.unpack ≠ .notANumber := by
  show x.toModel.unpack.isNaN = false ↔ _
  cases x.toModel.unpack <;> simp [UnpackedFloat.isNaN]

theorem le_iff_valueOf : x ≤ y ↔ IsNumber x ∧ IsNumber y ∧ valueOf x ≤ valueOf y := by
  rw [isNumber_iff, isNumber_iff]
  exact decide_eq_true_iff.trans (isLE_compare (canonical_toModel x) (canonical_toModel y))

theorem lt_iff_valueOf : x < y ↔ IsNumber x ∧ IsNumber y ∧ valueOf x < valueOf y := by
  rw [isNumber_iff, isNumber_iff]
  exact decide_eq_true_iff.trans (isLT_compare (canonical_toModel x) (canonical_toModel y))

/-- An undefined operand is ignored, and of two numbers the answer is the larger one. -/
theorem maxNum_cases (x y : Float32) :
    (¬IsNumber y → maxNum x y = x) ∧ (¬IsNumber x → IsNumber y → maxNum x y = y) ∧
      (IsNumber x → IsNumber y → valueOf (maxNum x y) = max (valueOf x) (valueOf y)) := by
  unfold maxNum
  refine ⟨fun undefined => if_pos (.inr (Bool.eq_true_of_not_eq_false undefined)), fun undefined isNumber => ?_,
    fun isNumber isNumber' => ?_⟩
  · have apart : ¬y ≤ x := fun ordered => undefined (le_iff_valueOf.mp ordered).2.1
    exact if_neg (not_or.mpr ⟨apart, Bool.eq_false_iff.mp isNumber⟩)
  · simp only [show y.isNaN = false from isNumber', le_iff_valueOf, isNumber, isNumber', true_and,
      Bool.false_eq_true, or_false]
    split
    · rename_i ordered
      exact (max_eq_left ordered).symm
    · rename_i apart
      exact (max_eq_right (le_of_not_ge apart)).symm

/-- An undefined operand is ignored, and of two numbers the answer is the smaller one. -/
theorem minNum_cases (x y : Float32) :
    (¬IsNumber y → minNum x y = x) ∧ (¬IsNumber x → IsNumber y → minNum x y = y) ∧
      (IsNumber x → IsNumber y → valueOf (minNum x y) = min (valueOf x) (valueOf y)) := by
  unfold minNum
  refine ⟨fun undefined => if_pos (.inr (Bool.eq_true_of_not_eq_false undefined)), fun undefined isNumber => ?_,
    fun isNumber isNumber' => ?_⟩
  · have apart : ¬x ≤ y := fun ordered => undefined (le_iff_valueOf.mp ordered).1
    exact if_neg (not_or.mpr ⟨apart, Bool.eq_false_iff.mp isNumber⟩)
  · simp only [show y.isNaN = false from isNumber', le_iff_valueOf, isNumber, isNumber', true_and,
      Bool.false_eq_true, or_false]
    split
    · rename_i ordered
      exact (min_eq_left ordered).symm
    · rename_i apart
      exact (min_eq_right (le_of_not_ge apart)).symm

end Order

/-! ## What a single-precision number stands for -/

/-- The number is finite and stands for the real number. -/
def Represents (x : Float32) (size : ℝ) : Prop := Written .binary32 size x.toModel.unpack

theorem represents_pack {number : UnpackedFloat} {size : ℝ} (written : Written .binary32 size number)
    (small : |size| ≤ 2 ^ 127) : Represents (.ofModel (.pack number)) size := by
  have read : (Float32.ofModel (.pack number)).toModel.unpack = number :=
    unpack_pack (by decide) (canonical_of_written (by decide) written small)
  unfold Represents
  rw [read]
  exact written

/-- A number that is read as whole units. -/
theorem represents_of_read {x : Float32} {sign : Sign} {significand : Nat} {exponent : Int} {size : ℝ}
    {positive : 0 < significand} (read : x.toModel.unpack = .finite sign significand exponent positive)
    (stands : signed sign (magnitude significand exponent) = size) : Represents x size := by
  have canonical := canonical_toModel x
  rw [read] at canonical
  unfold Represents
  rw [read, ← stands]
  exact .finite sign positive canonical.1

namespace Represents

variable {x y : Float32} {size size' : ℝ}

theorem add (represents : Represents x size) (represents' : Represents y size')
    (small : |rounded .binary32 (size + size')| ≤ 2 ^ 127) :
    Represents (x + y) (rounded .binary32 (size + size')) :=
  represents_pack (add_written represents represents') small

theorem mul (represents : Represents x size) (represents' : Represents y size')
    (small : |rounded .binary32 (size * size')| ≤ 2 ^ 127) :
    Represents (x * y) (rounded .binary32 (size * size')) :=
  represents_pack (mul_written represents represents') small

theorem isNumber (represents : Represents x size) : IsNumber x := by
  rw [isNumber_iff]
  unfold Represents at represents
  intro undefined
  rw [undefined] at represents
  cases represents

theorem valueOf_eq (represents : Represents x size) : valueOf x = size := value_of_written represents

end Represents

/-- A number between two real numbers is finite. -/
theorem exists_of_between {x : Float32} {lower upper : ℝ} (isNumber : IsNumber x) (least : lower ≤ valueOf x)
    (most : valueOf x ≤ upper) : ∃ size, Represents x size := by
  have canonical := canonical_toModel x
  unfold Represents
  unfold valueOf at least most
  rw [isNumber_iff] at isNumber
  generalize x.toModel.unpack = number at *
  cases number with
  | notANumber => exact absurd rfl isNumber
  | infinity sign =>
      cases sign
      · exact absurd least (EReal.bot_lt_coe lower).not_ge
      · exact absurd most (EReal.coe_lt_top upper).not_ge
  | zero sign => exact ⟨0, .zero sign⟩
  | finite sign significand exponent positive => exact ⟨_, .finite sign positive canonical.1⟩

section Constants

theorem represents_one : Represents 1 1 :=
  represents_of_read (show (1 : Float32).toModel.unpack = .finite .positive (2 ^ 23) (-23) (by decide) from rfl)
    (by norm_num [signed, magnitude])

theorem represents_neg_one : Represents (-1) (-1) :=
  represents_of_read (show (-1 : Float32).toModel.unpack = .finite .negative (2 ^ 23) (-23) (by decide) from rfl)
    (by norm_num [signed, magnitude])

theorem represents_127 : Represents 127 127 :=
  represents_of_read
    (show (127 : Float32).toModel.unpack = .finite .positive (127 * 2 ^ 17) (-17) (by decide) from rfl)
    (by norm_num [signed, magnitude])

theorem represents_128 : Represents 128 128 :=
  represents_of_read (show (128 : Float32).toModel.unpack = .finite .positive (2 ^ 23) (-16) (by decide) from rfl)
    (by norm_num [signed, magnitude])

end Constants

/-! ## Truncation -/

/-- A positive number is cut off to the whole units in it. -/
private theorem roundToInt_positive (significand : Nat) (exponent : Int) :
    roundToInt .positive significand exponent = ⌊magnitude significand exponent⌋ := by
  have located := (locates_exact (significand <<< (exponent - 0).toNat)).shiftRight
    (0 - (exponent - (exponent - 0).toNat)).toNat
  have size : ((significand <<< (exponent - 0).toNat : ℕ) : ℝ) /
      2 ^ (0 - (exponent - (exponent - 0).toNat)).toNat = magnitude significand exponent := by
    rw [Nat.shiftLeft_eq, Nat.cast_mul, Nat.cast_pow, Nat.cast_ofNat, magnitude, mul_div_assoc, ← zpow_natCast,
      ← zpow_natCast, ← zpow_sub₀ two_ne_zero]
    congr 2
    omega
  rw [size] at located
  exact located.floor_eq.symm

theorem toNat_ofNatClamp {count : Nat} (small : count < 256) : (UInt8.ofNatClamp count).toNat = count := by
  rw [UInt8.ofNatClamp, dif_pos small]
  rfl

/-- A number in the range of a byte is cut off to the whole number below it. -/
theorem toNat_toUInt8 {x : Float32} {size : ℝ} (represents : Represents x size) (notNegative : 0 ≤ size)
    (below : size < 256) : (x.toUInt8.toNat : ℤ) = ⌊size⌋ := by
  have least : 0 ≤ ⌊size⌋ := Int.floor_nonneg.mpr notNegative
  have most : ⌊size⌋ < 256 := Int.floor_lt.mpr (by exact_mod_cast below)
  have whole : x.toModel.unpack.toInt 0 (UInt8.size - 1) = ⌊size⌋ := by
    unfold Represents at represents
    generalize x.toModel.unpack = number at represents
    cases represents with
    | zero sign => exact Int.floor_zero.symm
    | @finite sign significand exponent positive target =>
        cases sign
        · have negative := magnitude_pos positive exponent
          exact absurd notNegative (not_le.mpr (neg_lt_zero.mpr negative))
        · exact roundToInt_positive significand exponent
  show ((UInt8.ofNatClamp (x.toModel.unpack.toInt 0 (UInt8.size - 1)).toNat).toNat : ℤ) = ⌊size⌋
  rw [whole, toNat_ofNatClamp (by omega)]
  omega

end Single

/-! ## Rounding near one -/

/-- Single precision keeps numbers from one half to one in units of two to the minus 24. -/
private theorem unitExponent_single {x : ℝ} (atLeast : 1 / 2 ≤ x) (below : x < 1) :
    unitExponent .binary32 x = -24 := by
  have digits := unitExponent_of_digits .binary32 (x := x) Nat.one_pos (show magnitude 1 (-1) ≤ x by
    norm_num [magnitude]; linarith) (show x < magnitude (1 + 1) (-1) by norm_num [magnitude]; exact below)
  rw [digits]
  rfl

/-- From half a unit below it on, a number is rounded to one, which is even. -/
theorem rounded_lt_one_iff {x : ℝ} : rounded .binary32 x < 1 ↔ x < 1 - 1 / 2 ^ 25 := by
  constructor
  · intro below
    by_contra! near
    have tie : nearestEven ((1 - 1 / 2 ^ 25) / 2 ^ (-24 : ℤ)) = 2 ^ 24 := by
      apply nearestEven_of_near
      · norm_num
      · norm_num
      · exact .inl (by decide)
    have one : rounded .binary32 (1 - 1 / 2 ^ 25) = 1 := by
      rw [rounded_eq, unitExponent_single (by norm_num) (by norm_num), tie]
      norm_num
    have atLeast := rounded_mono .binary32 near
    linarith
  · intro far
    rcases lt_or_ge x (1 / 2) with small | atLeast
    · have half : rounded .binary32 (1 / 2) = 1 / 2 :=
        rounded_of_short .binary32 (by norm_num) (show |(1 : ℤ)| < 2 ^ 24 by decide)
          (show (-149 : ℤ) ≤ -1 by decide)
      have atMost := rounded_mono .binary32 small.le
      rw [half] at atMost
      linarith
    · have count : nearestEven (x / 2 ^ (-24 : ℤ)) < 2 ^ 24 := by
        apply nearestEven_lt
        norm_num at far ⊢
        linarith
      have count' : (nearestEven (x / 2 ^ (-24 : ℤ)) : ℝ) < 2 ^ 24 := by exact_mod_cast count
      rw [rounded_eq, unitExponent_single atLeast (by linarith)]
      norm_num at count' ⊢
      linarith

/-! ## Storing in single precision -/

section Storing

variable {number : UnpackedFloat} {size : ℝ}

private theorem roundTo_written {format : Format} (format' : Format) (written : Written format size number) :
    Written format' (rounded format' size) (roundTo format' number) := by
  cases written with
  | zero sign =>
      rw [rounded_zero]
      exact .zero sign
  | finite sign positive target =>
      rw [rounded_signed]
      exact round_written positive _

/-- Double precision has all the digits of single precision. -/
private theorem rounded_double_of_single (written : Written .binary32 size number) : rounded .binary64 size = size := by
  cases written with
  | zero sign => exact rounded_zero _
  | @finite sign significand exponent positive target =>
      rw [targetExponent_single, totalExponent] at target
      have short : |(significand : ℤ)| < 2 ^ Format.binary64.mantissaBits := by
        have digits := Nat.lt_log2_self (n := significand)
        have bound : 2 ^ (significand.log2 + 1) ≤ 2 ^ 53 := Nat.pow_le_pow_right (by decide) (by omega)
        have less : significand < 2 ^ 53 := by omega
        rw [Nat.abs_cast]
        exact_mod_cast less
      have whole : rounded .binary64 (magnitude significand exponent) = magnitude significand exponent :=
        rounded_of_short .binary64 rfl short (show (-1074 : ℤ) ≤ exponent by omega)
      rw [rounded_signed, whole]

theorem throughSingle_represents {x : Float} (represents : Represents x size)
    (small : |rounded .binary32 size| ≤ 2 ^ 127) :
    Represents (throughSingle x) (rounded .binary32 size) := by
  have stored : Single.Represents (narrow x) (rounded .binary32 size) :=
    Single.represents_pack (roundTo_written _ represents) small
  have widened := roundTo_written .binary64 stored
  rw [rounded_double_of_single stored] at widened
  exact represents_pack widened (small.trans (pow_le_pow_right₀ one_le_two (by decide)))

end Storing

end EvoRaster.Numeric
