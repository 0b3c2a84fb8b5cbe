import EvoRaster.Program.Text
import EvoRaster.Proofs.Text.Nearest

/-!
Contract: the text of a constant identifies it in single precision.

Owns:
- `IsNumeral`, the words that numbers are written as, and `isNumeral_constantText`;
- `HasSize`, the numbers with digits, and `rounded_reading_unsignedText`, by which the digits are rounded back to them;
- `constantText_injective`: different numbers have different texts, zeros of either sign among them.

There is one undefined value.
-/

namespace EvoRaster.Decimal

open Float.Model (Format UnpackedFloat totalExponent)
open Float.Model.UnpackedFloat
open Numeric

/-! ## Numerals -/

/-- The words that numbers are written as. -/
inductive IsNumeral : List Char → Prop where
  | undefined : IsNumeral ['n', 'a', 'n']
  | infinity (sign : Sign) : IsNumeral (signMark sign ++ ['i', 'n', 'f'])
  | digits (sign : Sign) {first : Char} {rest : List Char} (digit : first.isDigit = true)
      (others : ∀ c ∈ rest, c.isDigit = true ∨ c = '.') : IsNumeral (signMark sign ++ first :: rest)

private theorem isNumeral_positional (sign : Sign) (number : Decimal) :
    IsNumeral (signMark sign ++ positional false number) := by
  obtain ⟨first, rest, written, digit, others⟩ := positional_shape false number
  rw [written]
  exact .digits sign digit others

private theorem isNumeral_write (format : Format) (number : UnpackedFloat) :
    IsNumeral (constantStyle.write format number) := by
  cases number with
  | notANumber => exact .undefined
  | infinity sign => exact .infinity sign
  | zero sign => exact isNumeral_positional sign _
  | finite sign significand exponent positive => exact isNumeral_positional sign _

theorem isNumeral_constantText (value : Float32) : IsNumeral (constantText value).toList := by
  rw [constantText, String.toList_ofList]
  exact isNumeral_write _ _

/-! ## Sign and digits -/

def signOf : UnpackedFloat → Sign
  | .notANumber => .positive
  | .infinity sign | .zero sign | .finite sign _ _ _ => sign

/-- The text of a number after its sign. -/
def unsignedText (format : Format) : UnpackedFloat → List Char
  | .notANumber => ['n', 'a', 'n']
  | .infinity _ => ['i', 'n', 'f']
  | .zero _ => positional false { coefficient := 0, exponent := 0 }
  | .finite _ significand exponent _ => positional false (shortest format significand exponent)

private theorem write_eq (format : Format) (number : UnpackedFloat) :
    constantStyle.write format number = signMark (signOf number) ++ unsignedText format number := by
  cases number <;> rfl

/-- A number with digits, and its size. -/
inductive HasSize : UnpackedFloat → ℝ → Prop where
  | zero (sign : Sign) : HasSize (.zero sign) 0
  | finite (sign : Sign) {significand : Nat} (exponent : ℤ) (positive : 0 < significand) :
      HasSize (.finite sign significand exponent positive) (magnitude significand exponent)

section HasSize

variable {format : Format} {number number' : UnpackedFloat} {size : ℝ}

theorem HasSize.exists_digit (format : Format) (sized : HasSize number size) :
    ∃ first rest, unsignedText format number = first :: rest ∧ first.isDigit = true := by
  cases sized with
  | zero sign => exact ⟨'0', [], rfl, rfl⟩
  | @finite sign significand exponent positive =>
      obtain ⟨first, rest, starts, digit, -⟩ := positional_shape false (shortest format significand exponent)
      exact ⟨first, rest, starts, digit⟩

/-- The digits that are written are rounded to the number. -/
theorem rounded_reading_unsignedText (canonical : Canonical format number) (sized : HasSize number size) :
    rounded format (reading (unsignedText format number)) = size := by
  cases sized with
  | zero sign =>
      have nothing : Decimal.size { coefficient := 0, exponent := 0 } = 0 := by simp [Decimal.size]
      rw [unsignedText, reading_positional, nothing, rounded_zero]
  | finite sign exponent positive =>
      rw [unsignedText, reading_positional, rounded_shortest positive canonical.1]

/-- Only one number of a format has a given sign and size. -/
theorem HasSize.unique (canonical : Canonical format number) (canonical' : Canonical format number')
    (sized : HasSize number size) (sized' : HasSize number' size) (sameSign : signOf number = signOf number') :
    number = number' := by
  cases sized with
  | zero sign =>
      generalize nothing : (0 : ℝ) = size at sized'
      cases sized' with
      | zero sign' => exact congrArg UnpackedFloat.zero sameSign
      | finite sign' exponent' positive' => exact absurd nothing (magnitude_pos positive' exponent').ne
  | @finite sign significand exponent positive =>
      generalize same : magnitude significand exponent = size at sized'
      cases sized' with
      | zero sign' => exact absurd same (magnitude_pos positive exponent).ne'
      | @finite sign' significand' exponent' positive' =>
          have order := compare_magnitude canonical canonical'
          rw [compare_eq_iff_eq.mpr same, Ordering.then_eq_eq, compare_eq_iff_eq, compare_eq_iff_eq] at order
          obtain ⟨rfl, rfl⟩ := order
          obtain rfl : sign = sign' := sameSign
          rfl

end HasSize

/-- A number is undefined, infinite, or has a size. -/
theorem exists_hasSize (number : UnpackedFloat) :
    number = .notANumber ∨ (∃ sign, number = .infinity sign) ∨ ∃ size, HasSize number size := by
  cases number with
  | notANumber => exact .inl rfl
  | infinity sign => exact .inr (.inl ⟨sign, rfl⟩)
  | zero sign => exact .inr (.inr ⟨_, .zero sign⟩)
  | finite sign significand exponent positive => exact .inr (.inr ⟨_, .finite sign exponent positive⟩)

/-! ## Different numbers, different texts -/

section Injective

variable {format : Format} {number number' : UnpackedFloat}

/-- What starts with a digit is no letter. -/
private theorem HasSize.exists_of_unsignedText {size : ℝ} (sized : HasSize number size)
    (same : unsignedText format number = unsignedText format number') : ∃ size', HasSize number' size' := by
  obtain ⟨first, rest, starts, digit⟩ := sized.exists_digit format
  rw [starts] at same
  obtain rfl | ⟨sign, rfl⟩ | sized' := exists_hasSize number'
  · cases same
    cases digit
  · cases same
    cases digit
  · exact sized'

theorem eq_of_unsignedText (canonical : Canonical format number) (canonical' : Canonical format number')
    (sameSign : signOf number = signOf number')
    (same : unsignedText format number = unsignedText format number') : number = number' := by
  by_cases sized : ∃ size, HasSize number size
  · obtain ⟨size, sized⟩ := sized
    obtain ⟨size', sized'⟩ := sized.exists_of_unsignedText same
    have reads := rounded_reading_unsignedText canonical sized
    rw [same, rounded_reading_unsignedText canonical' sized'] at reads
    exact sized.unique canonical canonical' (reads ▸ sized') sameSign
  · have sized' : ¬∃ size, HasSize number' size := fun ⟨_, sized'⟩ => sized (sized'.exists_of_unsignedText same.symm)
    obtain rfl | ⟨sign, rfl⟩ := (or_assoc.mpr (exists_hasSize number)).resolve_right sized
    · obtain rfl | ⟨sign', rfl⟩ := (or_assoc.mpr (exists_hasSize number')).resolve_right sized'
      · rfl
      · cases same
    · obtain rfl | ⟨sign', rfl⟩ := (or_assoc.mpr (exists_hasSize number')).resolve_right sized'
      · cases same
      · exact congrArg UnpackedFloat.infinity sameSign

private theorem head?_unsignedText (format : Format) (number : UnpackedFloat) :
    (unsignedText format number).head? ≠ some '-' := by
  obtain rfl | ⟨sign, rfl⟩ | ⟨size, sized⟩ := exists_hasSize number
  · exact nofun
  · exact nofun
  · obtain ⟨first, rest, starts, digit⟩ := sized.exists_digit format
    rw [starts, List.head?_cons, Ne, Option.some.injEq]
    rintro rfl
    cases digit

/-- The mark in front tells the sign. -/
private theorem signMark_append_inj {sign sign' : Sign} {text text' : List Char} (noMark : text.head? ≠ some '-')
    (noMark' : text'.head? ≠ some '-') (same : signMark sign ++ text = signMark sign' ++ text') :
    sign = sign' ∧ text = text' := by
  cases sign <;> cases sign' <;> simp only [signMark, List.nil_append, List.singleton_append] at same
  · exact ⟨rfl, (List.cons.inj same).2⟩
  · rw [← same] at noMark'
    exact absurd rfl noMark'
  · rw [same] at noMark
    exact absurd rfl noMark
  · exact ⟨rfl, same⟩

theorem eq_of_write (canonical : Canonical format number) (canonical' : Canonical format number')
    (same : constantStyle.write format number = constantStyle.write format number') : number = number' := by
  rw [write_eq, write_eq] at same
  obtain ⟨sameSign, sameText⟩ :=
    signMark_append_inj (head?_unsignedText format number) (head?_unsignedText format number') same
  exact eq_of_unsignedText canonical canonical' sameSign sameText

end Injective

/-- The text of a constant identifies it in single precision. -/
theorem constantText_injective : Function.Injective constantText := by
  intro first second same
  have written : single constantStyle first = single constantStyle second := by
    have texts := congrArg String.toList same
    rwa [constantText, constantText, String.toList_ofList, String.toList_ofList] at texts
  have canonical : ∀ value : Float32, Canonical .binary32 value.toModel.unpack :=
    fun value => canonical_unpack (by decide) _
  have unpacked := eq_of_write (canonical first) (canonical second) written
  have packed := congrArg Float32.Model.pack unpacked
  rw [model_pack_unpack, model_pack_unpack] at packed
  exact congrArg Float32.ofModel packed

end EvoRaster.Decimal
