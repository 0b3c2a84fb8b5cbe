import Mathlib
import EvoRaster.Decimal.Layout

/-!
Contract: what the text of a decimal stands for when it is written without an exponent.

Owns:
- `Decimal.size`, the number that a decimal stands for, and `reading`, the number that a text with at most one point
  stands for;
- `Splits`, by which the digits before and after the point are those of the decimal, and `splits_split`;
- `reading_positional`: reading the text of a decimal gives the decimal back;
- `positional_shape`: the text starts with a digit and holds only digits and points.

Does not own: which decimal is written for a binary number.
-/

namespace EvoRaster.Decimal

/-- The number that a decimal stands for. -/
noncomputable def size (number : Decimal) : ℝ := number.coefficient * 10 ^ number.exponent

/-- The number that digits with at most one point among them stand for. -/
noncomputable def reading (text : List Char) : ℝ :=
  let whole := text.takeWhile (· != '.')
  let fraction := (text.dropWhile (· != '.')).drop 1
  Nat.ofDigitChars 10 (whole ++ fraction) 0 / 10 ^ fraction.length

section Reading

variable {whole : List Char}

private theorem ne_point_of_isDigit {c : Char} (digit : c.isDigit = true) : (c != '.') = true := by
  rw [bne_iff_ne]
  rintro rfl
  cases digit

private theorem reading_point (digits : ∀ c ∈ whole, c.isDigit = true) (fraction : List Char) :
    reading (whole ++ '.' :: fraction) = Nat.ofDigitChars 10 (whole ++ fraction) 0 / 10 ^ fraction.length := by
  have before : ∀ c ∈ whole, (c != '.') = true := fun c member => ne_point_of_isDigit (digits c member)
  simp [reading, List.takeWhile_append_of_pos before, List.dropWhile_append_of_pos before]

private theorem reading_whole (digits : ∀ c ∈ whole, c.isDigit = true) :
    reading whole = Nat.ofDigitChars 10 whole 0 := by
  have before : ∀ c ∈ whole, (c != '.') = true := fun c member => ne_point_of_isDigit (digits c member)
  have read := List.takeWhile_eq_self_iff.mpr before
  have nothing := List.dropWhile_eq_nil_iff.mpr before
  simp only [reading, read, nothing, List.drop_nil, List.append_nil, List.length_nil, pow_zero, div_one]

end Reading

/-! ## Digits before and after the point -/

/-- The digits around the point write the decimal. -/
structure Splits (number : Decimal) (whole fraction : List Char) : Prop where
  ne_nil : whole ≠ []
  digits : ∀ c ∈ whole ++ fraction, c.isDigit = true
  value : (Nat.ofDigitChars 10 (whole ++ fraction) 0 : ℝ) = number.size * 10 ^ fraction.length

private theorem isDigit_of_mem_zeros {count : Nat} {c : Char} (member : c ∈ zeros count) : c.isDigit = true := by
  rw [List.eq_of_mem_replicate member]
  rfl

private theorem isDigit_of_mem_digits {count : Nat} {c : Char} (member : c ∈ Nat.toDigits 10 count) :
    c.isDigit = true :=
  Nat.isDigit_of_mem_toDigits (by decide) (by decide) member

/-- A decimal without places is a whole number. -/
private theorem size_of_nonneg {number : Decimal} (whole : 0 ≤ number.exponent) :
    number.size = ((10 ^ number.exponent.toNat * number.coefficient : Nat) : ℝ) := by
  have exponent : ((number.exponent.toNat : ℤ)) = number.exponent := Int.toNat_of_nonneg whole
  rw [size, ← exponent, zpow_natCast, exponent]
  push_cast
  ring

/-- A decimal with places is a whole number of its last place. -/
theorem size_mul_places {number : Decimal} (fractional : number.exponent < 0) :
    number.size * 10 ^ (-number.exponent).toNat = number.coefficient := by
  have places : (((-number.exponent).toNat : ℤ)) = -number.exponent := Int.toNat_of_nonneg (by omega)
  rw [size, ← zpow_natCast, places, mul_assoc, ← zpow_add₀ (by norm_num), add_neg_cancel, zpow_zero, mul_one]

section Split

variable {number : Decimal}

private theorem splits_of_whole (whole : 0 ≤ number.exponent) :
    number.Splits (Nat.toDigits 10 number.coefficient ++ zeros number.exponent.toNat) [] := by
  refine ⟨by simp [Nat.toDigits_ne_nil], fun c member => ?_, ?_⟩
  · rw [List.append_nil, List.mem_append] at member
    exact member.elim isDigit_of_mem_digits isDigit_of_mem_zeros
  · rw [List.append_nil, Nat.ofDigitChars_append, Nat.ofDigitChars_ten_toDigits, zeros,
      Nat.ofDigitChars_replicate_zero, List.length_nil, pow_zero, mul_one, size_of_nonneg whole]

/-- There are more digits than places. -/
private theorem splits_of_long (fractional : number.exponent < 0) {before : Nat} (positive : 0 < before)
    (long : before + (-number.exponent).toNat = (Nat.toDigits 10 number.coefficient).length) :
    number.Splits ((Nat.toDigits 10 number.coefficient).take before)
      ((Nat.toDigits 10 number.coefficient).drop before) := by
  refine ⟨?_, fun c member => ?_, ?_⟩
  · rw [Ne, List.take_eq_nil_iff, not_or]
    exact ⟨positive.ne', Nat.toDigits_ne_nil⟩
  · rw [List.take_append_drop] at member
    exact isDigit_of_mem_digits member
  · rw [List.take_append_drop, Nat.ofDigitChars_ten_toDigits, List.length_drop, ← long, Nat.add_sub_cancel_left,
      size_mul_places fractional]

/-- There are at most as many digits as places. The zeros in front of the digits count for nothing. -/
private theorem splits_of_short (fractional : number.exponent < 0) {missing : Nat}
    (short : missing + (Nat.toDigits 10 number.coefficient).length = (-number.exponent).toNat) :
    number.Splits ['0'] (zeros missing ++ Nat.toDigits 10 number.coefficient) := by
  refine ⟨List.cons_ne_nil _ _, fun c member => ?_, ?_⟩
  · rw [List.singleton_append, List.mem_cons, List.mem_append] at member
    obtain rfl | member := member
    · rfl
    · exact member.elim isDigit_of_mem_zeros isDigit_of_mem_digits
  · rw [List.length_append, zeros, List.length_replicate, short, size_mul_places fractional, List.singleton_append,
      Nat.ofDigitChars_cons, Nat.ofDigitChars_append, Nat.sub_self, Nat.mul_zero, Nat.add_zero,
      Nat.ofDigitChars_replicate_zero, Nat.mul_zero, Nat.ofDigitChars_ten_toDigits]

theorem splits_split (number : Decimal) : number.Splits number.split.1 number.split.2 := by
  by_cases whole : 0 ≤ number.exponent
  · simp only [split, if_pos whole]
    exact splits_of_whole whole
  · by_cases long : (-number.exponent).toNat < (Nat.toDigits 10 number.coefficient).length
    · simp only [split, if_neg whole, if_pos long, List.splitAt_eq]
      exact splits_of_long (by omega) (by omega) (by omega)
    · simp only [split, if_neg whole, if_neg long]
      exact splits_of_short (by omega) (by omega)

end Split

/-! ## The text -/

theorem positional_eq (keepsPoint : Bool) (number : Decimal) :
    positional keepsPoint number =
      if number.split.2 = [] then number.split.1 ++ (if keepsPoint then ['.', '0'] else [])
      else number.split.1 ++ '.' :: number.split.2 := by
  unfold positional
  rcases number.split with ⟨whole, _ | ⟨digit, rest⟩⟩
  · cases keepsPoint <;> simp
  · simp

/-- Reading the text of a decimal gives the decimal back, whether or not a point was kept. -/
theorem reading_positional (keepsPoint : Bool) (number : Decimal) :
    reading (positional keepsPoint number) = number.size := by
  obtain ⟨-, digits, value⟩ := number.splits_split
  have digits' : ∀ c ∈ number.split.1, c.isDigit = true := fun c member => digits c (List.mem_append_left _ member)
  rw [positional_eq]
  split_ifs with noFraction kept
  · rw [noFraction, List.append_nil, List.length_nil, pow_zero, mul_one] at value
    rw [reading_point digits', Nat.ofDigitChars_append, Nat.ofDigitChars_cons, Nat.ofDigitChars_nil, ← value]
    simp
  · rw [noFraction, List.append_nil, List.length_nil, pow_zero, mul_one] at value
    rw [List.append_nil, reading_whole digits', value]
  · rw [reading_point digits', value, mul_div_assoc, div_self (by positivity), mul_one]

/-- The text of a decimal starts with a digit and holds only digits and points. -/
theorem positional_shape (keepsPoint : Bool) (number : Decimal) :
    ∃ first rest, positional keepsPoint number = first :: rest ∧ first.isDigit = true ∧
      ∀ c ∈ rest, c.isDigit = true ∨ c = '.' := by
  obtain ⟨ne_nil, digits, -⟩ := number.splits_split
  rw [positional_eq]
  obtain ⟨first, others, split⟩ := List.exists_cons_of_ne_nil ne_nil
  rw [split, List.cons_append, List.forall_mem_cons] at digits
  rw [split]
  obtain ⟨firstDigit, digits⟩ := digits
  have others' : ∀ c ∈ others, c.isDigit = true := fun c member => digits c (List.mem_append_left _ member)
  split_ifs
  · refine ⟨first, others ++ ['.', '0'], rfl, firstDigit, fun c member => ?_⟩
    rcases List.mem_append.mp member with member | member
    · exact .inl (others' c member)
    · rcases List.mem_pair.mp member with rfl | rfl
      · exact .inr rfl
      · exact .inl rfl
  · exact ⟨first, others, by simp, firstDigit, fun c member => .inl (others' c member)⟩
  · refine ⟨first, others ++ '.' :: number.split.2, rfl, firstDigit, fun c member => ?_⟩
    rcases List.mem_append.mp member with member | member
    · exact .inl (others' c member)
    · rcases List.mem_cons.mp member with rfl | member
      · exact .inr rfl
      · exact .inl (digits c (List.mem_append_right _ member))

end EvoRaster.Decimal
