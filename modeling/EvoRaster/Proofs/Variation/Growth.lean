import EvoRaster.Proofs.Machine.Agreement
import EvoRaster.Proofs.Variation.Deepening

/-!
Contract: what mutations do to the course of a program.

Owns:
- `Reliable.ends`, the two ways in which a computation on a list of words ends;
- `mutate_course`, by which a mutation keeps every course, with one more cell at most;
- `mutation_deepens_slowly`, which adds that 63 mutations of the seed fit on the stack.
-/

namespace EvoRaster

/-- A reliable computation uses up the words or answers as promised. -/
theorem Reliable.ends {ε α : Type} {exhausted : ε} {action : ExceptT ε (StateM Source) α}
    {promise : α → Prop} (reliable : Reliable exhausted action promise) (words : List UInt32) :
    action (.listed words) = (.error exhausted, .listed []) ∨
      ∃ value rest, action (.listed words) = (.ok value, .listed rest) ∧ promise value := by
  match ended : action (.listed words) with
  | (.error cause, source) =>
      obtain ⟨rfl, rfl⟩ := (reliable words).of_error ended
      exact .inl rfl
  | (.ok value, source) =>
      obtain ⟨holds, rest, rfl⟩ := (reliable words).of_ok ended
      exact .inr ⟨value, rest, rfl, holds⟩

namespace Program

variable {program : Program}

/-- Where the program runs, the mutated one runs to the same height and gets at most one cell higher. -/
structure Deepens (program mutated : Program) : Prop where
  course : ∀ start final peak, program.course start = some { final, peak } →
    ∃ higher ≤ peak + 1, mutated.course start = some { final, peak := higher }
  nonempty : ∀ peak, program.course 0 = some { final := 1, peak } → mutated ≠ []

private theorem deepens_of_course {mutated : Program}
    (course : ∀ start final peak, program.course start = some { final, peak } →
      ∃ higher ≤ peak + 1, mutated.course start = some { final, peak := higher }) :
    program.Deepens mutated where
  course := course
  nonempty := by
    rintro peak taken rfl
    obtain ⟨higher, -, ended⟩ := course 0 1 peak taken
    cases ended

/-- A mutation fails only for want of words, and keeps every course that the program has. -/
theorem mutate_course {registers : Int} (nonempty : program ≠ [])
    (dropFree : ∀ instr ∈ program, instr.op ≠ .drop)
    (indexed : ∀ instr ∈ program, instr.op = .var → 0 ≤ instr.index) (positive : 1 ≤ registers) :
    Reliable (.draw .outOfWords) (program.mutate registers) program.Deepens := by
  have replaceable : ∀ instr ∈ program, instr.Replaceable :=
    fun instr member => ⟨dropFree instr member, indexed instr member⟩
  apply (mutate_reliable nonempty replaceable positive).mono
  rintro mutated ⟨position, inside, words, replaced, rfl⟩
  apply deepens_of_course
  intro start final peak taken
  exact splice_fits inside replaced ⟨peak, Nat.le_refl peak, taken⟩

/-- Both evaluations answer the same values at all of the given points. The machine is made once. -/
def Answers (program : Program) (points : List Registers) : Prop :=
  ∃ machine, Machine.ofProgram Config.registers program = .ok machine ∧
    ∃ values : List Float32, points.map program.evaluate = values.map .ok ∧
      machine.evaluateAll points = values.map .ok

theorem Evolved.answers (evolved : program.Evolved Stack.evaluationCapacity) {points : List Registers}
    (sized : ∀ point ∈ points, point.size = Config.registers) : program.Answers points := by
  obtain ⟨code, compiled⟩ := Code.ofProgram_isOk_iff.mpr evolved.readsWithin
  obtain ⟨values, evaluated⟩ : ∃ values : List Float32, points.map program.evaluate = values.map .ok := by
    induction points with
    | nil => exact ⟨[], rfl⟩
    | cons point points inductionHypothesis =>
        rw [List.forall_mem_cons] at sized
        have reads : program.ReadsWithin point.size := by
          rw [sized.1]
          exact evolved.readsWithin
        obtain ⟨value, known⟩ := evaluate_of_fits reads evolved.fits
        obtain ⟨values, others⟩ := inductionHypothesis sized.2
        exact ⟨value :: values, by rw [List.map_cons, List.map_cons, known, others]⟩
  refine ⟨_, by rw [Machine.ofProgram_eq, compiled, map_ok], values, evaluated, ?_⟩
  rw [Machine.evaluateAll_eq program]
  · have answered := congrArg (List.map (Except.mapError EvalError.asFault)) evaluated
    simpa [Function.comp_def] using answered
  · intro point member
    rw [sized point member]
    exact compiled

/-- A mutation of a program without `drop` succeeds unless the words run out, and deepens it by one cell at
most. So programs that are at most 63 mutations away from the seed have a value at every point. -/
theorem mutation_deepens_slowly :
    (∀ (program : Program) (registers : Int), program ≠ [] →
      (∀ instr ∈ program, instr.op ≠ .drop) →
      (∀ instr ∈ program, instr.op = .var → 0 ≤ instr.index) → 1 ≤ registers →
      ∀ words,
        program.mutate registers (.listed words) = (.error (.draw .outOfWords), .listed []) ∨
        ∃ mutated rest, program.mutate registers (.listed words) = (.ok mutated, .listed rest) ∧
          program.Deepens mutated) ∧
    ∀ times ≤ 63, ∀ words,
      seed.mutateTimes 2 times (.listed words) = (.error (.draw .outOfWords), .listed []) ∨
      ∃ mutated rest, seed.mutateTimes 2 times (.listed words) = (.ok mutated, .listed rest) ∧
        ∀ points : List Registers, (∀ point ∈ points, point.size = 2) → mutated.Answers points := by
  constructor
  · intro program registers nonempty dropFree indexed positive
    exact (mutate_course nonempty dropFree indexed positive).ends
  · intro times few words
    apply Reliable.ends
    apply (seed_evolved.mutateTimes_evolved times).mono
    intro mutated evolved points sized
    have roomy : mutated.Evolved Stack.evaluationCapacity := by
      apply evolved.mono
      unfold Stack.evaluationCapacity
      omega
    exact roomy.answers sized

/-- The constant of a doubled one gets a sum around it. After 63 mutations that make the seed as deep as they
can, it still has values. -/
theorem mutation_deepens_slowly_at_limit :
    Deepens [Instr.const 1, { op := .dup }, Instr.binary .max]
        [Instr.lowest, Instr.const 1, Instr.binary .add, { op := .dup }, Instr.binary .max] ∧
      (deep 63).Answers [#[0, 1], #[1, 0]] := by
  constructor
  · have drawn : mutate [Instr.const 1, { op := .dup }, Instr.binary .max] 1
        (.listed [0, 0x30000000, 0, 0]) = (.ok _, .listed []) :=
      mutate_of_drawn (Int.le_refl 1)
        (Draw.below_of_accepted [0x30000000, 0, 0] (by decide) rfl (by decide)) (replace_one 1 [])
    obtain failed | ⟨mutated, rest, ended, deepens⟩ := mutation_deepens_slowly.1
      [Instr.const 1, { op := .dup }, Instr.binary .max] 1 (by simp) (by simp [Instr.const, Instr.binary])
      (by simp [Instr.const, Instr.binary]) (Int.le_refl 1) [0, 0x30000000, 0, 0]
    · cases drawn.symm.trans failed
    · cases drawn.symm.trans ended
      exact deepens
  · have drawn := mutateTimes_deep 63 0 (by decide) []
    obtain failed | ⟨mutated, rest, ended, answers⟩ := mutation_deepens_slowly.2 63 (Nat.le_refl 63)
      ((List.range' 0 63).flatMap deepeningWords ++ [])
    · cases drawn.symm.trans failed
    · cases drawn.symm.trans ended
      exact answers _ (by simp)

end Program

end EvoRaster
