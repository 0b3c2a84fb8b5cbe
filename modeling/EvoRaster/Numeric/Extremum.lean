/-!
Contract: the larger and the smaller of two single-precision numbers.

Owns:
- `maxNum` and `minNum`, which compare first;
- `larger` and `smaller`, which ask for undefined operands first;
- `larger_eq_maxNum` and `smaller_eq_minNum`, by which the order of the questions does not matter.

An undefined operand is ignored: the answer is then the other operand. When both are undefined, or compare equal as
zero and minus zero do, the first operand is the answer.
-/

namespace EvoRaster.Numeric

def maxNum (first second : Float32) : Float32 :=
  if second ≤ first ∨ second.isNaN then first else second

def minNum (first second : Float32) : Float32 :=
  if first ≤ second ∨ second.isNaN then first else second

def larger (first second : Float32) : Float32 :=
  if second.isNaN then first
  else if first.isNaN then second
  else if second ≤ first then first
  else second

def smaller (first second : Float32) : Float32 :=
  if second.isNaN then first
  else if first.isNaN then second
  else if first ≤ second then first
  else second

private theorem unpack_of_isNaN {x : Float32} (undefined : x.isNaN = true) : x.toModel.unpack = .notANumber := by
  have undefined : x.toModel.unpack.isNaN = true := undefined
  cases read : x.toModel.unpack with
  | notANumber => rfl
  | infinity | zero | finite => rw [read] at undefined; cases undefined

/-- A comparison with an undefined operand fails. -/
private theorem not_le_of_isNaN {left right : Float32} (undefined : left.isNaN = true ∨ right.isNaN = true) :
    ¬left ≤ right := by
  show ¬decide ((left.toModel.unpack.compare right.toModel.unpack).any (·.isLE) = true) = true
  obtain undefined | undefined := undefined
  · rw [unpack_of_isNaN undefined]
    cases right.toModel.unpack <;> exact Bool.false_ne_true
  · rw [unpack_of_isNaN undefined]
    cases left.toModel.unpack <;> exact Bool.false_ne_true

theorem larger_eq_maxNum (first second : Float32) : larger first second = maxNum first second := by
  unfold larger maxNum
  by_cases undefined : second.isNaN
  · rw [if_pos undefined, if_pos (.inr undefined)]
  · rw [if_neg undefined]
    by_cases undefined' : first.isNaN
    · rw [if_pos undefined', if_neg (not_or.mpr ⟨not_le_of_isNaN (.inr undefined'), undefined⟩)]
    · rw [if_neg undefined']
      simp only [undefined, Bool.false_eq_true, or_false]

theorem smaller_eq_minNum (first second : Float32) : smaller first second = minNum first second := by
  unfold smaller minNum
  by_cases undefined : second.isNaN
  · rw [if_pos undefined, if_pos (.inr undefined)]
  · rw [if_neg undefined]
    by_cases undefined' : first.isNaN
    · rw [if_pos undefined', if_neg (not_or.mpr ⟨not_le_of_isNaN (.inl undefined'), undefined⟩)]
    · rw [if_neg undefined']
      simp only [undefined, Bool.false_eq_true, or_false]

end EvoRaster.Numeric
