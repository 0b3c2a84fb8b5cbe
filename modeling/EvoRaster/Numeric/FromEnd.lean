/-!
Contract: positions given by a signed index.

An index below zero counts from the end, so minus one is the last position.
-/

namespace EvoRaster

/-- The position that a signed index names among `size` positions, if there is one. -/
def position? (size : Nat) (index : Int) : Option (Fin size) :=
  if counted : 0 ≤ index ∧ index < size then
    some ⟨index.toNat, by omega⟩
  else if fromEnd : index < 0 ∧ 0 ≤ index + size then
    some ⟨(index + size).toNat, by omega⟩
  else
    none

theorem position?_eq_some_iff {size : Nat} {index : Int} {position : Fin size} :
    position? size index = some position ↔
      index = position.val ∨ index = (position.val : Int) - size := by
  have bound := position.isLt
  unfold position?
  split
  · simp only [Option.some.injEq, Fin.ext_iff]
    omega
  · split
    · simp only [Option.some.injEq, Fin.ext_iff]
      omega
    · simp only [reduceCtorEq, false_iff]
      omega

end EvoRaster
