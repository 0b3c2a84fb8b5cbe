import EvoRaster.Proofs.Variation.Obtainable
import EvoRaster.Proofs.Variation.Storage

/-!
Contract: the outcomes of a mutation.

Owns:
- `Program.Splices`, by which one word has given way to words that its rule can draw;
- `Program.MutationFails`, the reasons for which a mutation fails, and what it leaves of the words;
- `mutate_ensures`: every outcome is of one of these two kinds;
- `mutation_splices`, which adds that every splice is an outcome, and that a mutation in place leaves the program as
  it was when it fails.
-/

namespace EvoRaster

/-- A word without a rule is refused before anything is drawn for it. -/
private theorem Rule.replace_of_not_replaceable {instr : Instr} (unreplaceable : ¬instr.Replaceable) :
    (instr.op = .drop ∧ ∀ registers source, replace instr registers source = (.error .dropChosen, source)) ∨
      (instr.op = .var ∧ instr.index < 0 ∧ ∀ registers source,
        replace instr registers source = (.error (.instr (.negativeIndex instr.index)), source)) := by
  by_cases isDrop : instr.op = .drop
  · refine .inl ⟨isDrop, fun registers source => ?_⟩
    rw [replace, isDrop]
    rfl
  · have unnamed : ¬(instr.op = .var → 0 ≤ instr.index) := fun register => unreplaceable ⟨isDrop, register⟩
    rcases Classical.not_imp.mp unnamed with ⟨isVar, negative⟩
    refine .inr ⟨isVar, by omega, fun registers source => ?_⟩
    have refused : Instr.var instr.index = .error (.negativeIndex instr.index) := if_pos (by omega)
    rw [replace, isVar]
    apply bind_of_error
    rw [refused]
    rfl

namespace Program

/-- The second program is the first with one word replaced as the rule of that word allows. -/
inductive Splices (registers : Int) (program mutated : Program) : Prop where
  | at (before : Program) (instr : Instr) (after words : Program) (split : program = before ++ instr :: after)
      (replaceable : instr.Replaceable) (replaced : Replacement registers instr words)
      (result : mutated = before ++ words ++ after)

/-- Why a mutation fails that draws from these words, and the source that it leaves. -/
inductive MutationFails (program : Program) (registers : Int) (words : List UInt32) :
    VariationError → Source → Prop where
  | empty (nothing : program = []) : MutationFails program registers words .emptyProgram (.listed words)
  | noRegisters (few : registers < 1) :
      MutationFails program registers words (.noRegisters registers) (.listed words)
  | drop {position : Fin program.length} {rest : List UInt32}
      (chosen : Draw.below program.length (.listed words) = (.ok position, .listed rest))
      (isDrop : (program.get position).op = .drop) :
      MutationFails program registers words .dropChosen (.listed rest)
  | negative {position : Fin program.length} {rest : List UInt32}
      (chosen : Draw.below program.length (.listed words) = (.ok position, .listed rest))
      (isVar : (program.get position).op = .var) (negative : (program.get position).index < 0) :
      MutationFails program registers words (.instr (.negativeIndex (program.get position).index)) (.listed rest)
  | exhausted : MutationFails program registers words (.draw .outOfWords) (.listed [])

variable {program mutated : Program} {registers : Int}

/-! ## Splices -/

theorem splices_splice {position : Nat} {words : List Instr} (inside : position < program.length)
    (replaceable : program[position].Replaceable) (replaced : Replacement registers program[position] words) :
    program.Splices registers (program.splice position words) := by
  have split : program = program.take position ++ program[position] :: program.drop (position + 1) := by
    rw [List.getElem_cons_drop, List.take_append_drop]
  exact .at _ _ _ words split replaceable replaced rfl

theorem Splices.exists_splice (splices : program.Splices registers mutated) :
    ∃ (position : Nat) (inside : position < program.length) (words : List Instr),
      program[position].Replaceable ∧ Replacement registers program[position] words ∧
        mutated = program.splice position words := by
  rcases splices with ⟨before, instr, after, words, rfl, replaceable, replaced, rfl⟩
  have inside : before.length < (before ++ instr :: after).length := by simp
  have chosen : (before ++ instr :: after)[before.length] = instr := by simp
  refine ⟨before.length, inside, words, chosen.symm ▸ replaceable, chosen.symm ▸ replaced, ?_⟩
  simp [splice, List.drop_append]

/-- A program gets shorter by one word at most, and longer by two at most. -/
theorem Splices.length (splices : program.Splices registers mutated) :
    program.length ≤ mutated.length + 1 ∧ mutated.length ≤ program.length + 2 := by
  rcases splices with ⟨before, instr, after, words, rfl, -, replaced, rfl⟩
  have short := replaced.length_le
  simp only [List.length_append, List.length_cons]
  omega

/-! ## Outcomes -/

/-- A mutation splices words in, or it fails for one of five reasons. -/
theorem mutate_ensures (program : Program) (registers : Int) (words : List UInt32) :
    Ensures (program.mutate registers) (.listed words)
      (fun mutated source => 1 ≤ registers ∧ program.Splices registers mutated ∧ ∃ rest, source = .listed rest)
      (program.MutationFails registers words) := by
  by_cases nothing : program = []
  · subst nothing
    exact MutationFails.empty rfl
  unfold mutate
  rw [if_neg (by simpa using nothing)]
  by_cases few : registers < 1
  · rw [if_pos few]
    exact Ensures.of_throw (.noRegisters few)
  rw [if_neg few]
  have positive : 1 ≤ registers := Int.not_lt.mp few
  have positions := Draw.below_reliable (List.length_pos_iff.mpr nothing) words
  refine Ensures.bind (Ensures.adapt (Ensures.intro ?_ ?_))
  · intro position source chosen
    rcases positions.of_ok chosen with ⟨-, rest, rfl⟩
    by_cases replaceable : program[position].Replaceable
    · have replaced := Rule.replace_reliable replaceable positive rest
      refine Ensures.bind (replaced.mono ?_ ?_)
      · intro replacement source ended
        rcases ended with ⟨replaced, remaining⟩
        exact Ensures.of_pure ⟨positive, splices_splice position.isLt replaceable replaced, remaining⟩
      · intro cause source ended
        rcases ended with ⟨rfl, rfl⟩
        exact .exhausted
    · have chosen : Draw.below program.length (.listed words) = (.ok position, .listed rest) := chosen
      rcases Rule.replace_of_not_replaceable replaceable with ⟨isDrop, refused⟩ | ⟨isVar, negative, refused⟩
      · exact Ensures.bind (Ensures.of_failure (refused _ _) (.drop chosen isDrop))
      · exact Ensures.bind (Ensures.of_failure (refused _ _) (.negative chosen isVar negative))
  · intro cause source failed
    rcases positions.of_error failed with ⟨rfl, rfl⟩
    exact .exhausted

/-- The outcomes of a mutation are the splices of one word, and every splice is an outcome. A mutation that fails does
so for one of five reasons, and leaves a program that is mutated in its place as it was. -/
theorem mutation_splices (program : Program) (registers : Int) :
    (∀ words, Ensures (program.mutate registers) (.listed words)
      (fun mutated source => program.Splices registers mutated ∧ program.length ≤ mutated.length + 1 ∧
        mutated.length ≤ program.length + 2 ∧ ∃ rest, source = .listed rest)
      (program.MutationFails registers words)) ∧
    (∀ (storage : Storage) (place : Nat),
      Ensures (Storage.mutate place registers) (storage.write place program)
        (fun _ after => program.mutate registers storage.source = (.ok (after.programs place), after.source) ∧
          ∀ other, other ≠ place → after.programs other = storage.programs other)
        fun cause after => program.mutate registers storage.source = (.error cause, after.source) ∧
          after.programs place = program ∧
          ∀ other, other ≠ place → after.programs other = storage.programs other) ∧
    ∀ mutated, (∃ words rest, program.mutate registers (.listed words) = (.ok mutated, .listed rest)) ↔
      1 ≤ registers ∧ program.Splices registers mutated := by
  refine ⟨fun words => ?_, fun storage place => ?_, fun mutated => ⟨?_, ?_⟩⟩
  · refine (program.mutate_ensures registers words).mono ?_ fun _ _ failed => failed
    intro mutated source ended
    rcases ended with ⟨-, splices, remaining⟩
    exact ⟨splices, splices.length.1, splices.length.2, remaining⟩
  · have inPlace := Storage.mutate_ensures (storage.write place program) place registers
    rw [Storage.write_here, Storage.write_source] at inPlace
    refine inPlace.mono ?_ ?_
    · intro _ after ended
      rcases ended with ⟨mutated, changes⟩
      refine ⟨mutated, fun other different => ?_⟩
      rw [changes.programs other different, storage.write_elsewhere place program different]
    · intro cause after ended
      rcases ended with ⟨failed, programs, -⟩
      refine ⟨failed, by rw [programs, Storage.write_here], fun other different => ?_⟩
      rw [programs, storage.write_elsewhere place program different]
  · rintro ⟨words, rest, ended⟩
    rcases (program.mutate_ensures registers words).of_ok ended with ⟨positive, splices, -⟩
    exact ⟨positive, splices⟩
  · rintro ⟨positive, splices⟩
    rcases splices.exists_splice with ⟨position, inside, replacement, replaceable, replaced, rfl⟩
    rcases mutate_obtainable positive inside replaceable replaced with ⟨words, answers⟩
    exact ⟨words ++ [], [], answers []⟩

end Program

end EvoRaster
