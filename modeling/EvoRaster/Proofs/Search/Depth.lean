import EvoRaster.Proofs.Search.Reached
import EvoRaster.Proofs.Variation.Deepening

/-!
Contract: what runs breed, and runs that end with a full stack.

Owns:
- `deepening_reaches`: words by which a run breeds a program that is as deep as it has been mutated;
- `deepening_overflows`, a run that does not complete;
- `completes_iff_fits`: a run that writes no files completes, unless the words run out, exactly if every
  program of every generation that it evaluates fits on the stack;
- `reached_programs_usable`, which says what a search can hold and what can be done with it.

Nothing in a mutation looks at the height of the stack. The choice of the words alone keeps programs low.
-/

namespace EvoRaster

namespace Run

/-- A run that reaches a program that does not fit ends in an overflow. -/
theorem Reaches.complete_of_tall {initial run : Run} {number : Nat} (reached : initial.Reaches number run)
    (fresh : initial.Fresh) (inhabited : initial.search.goal.pixels ≠ 0)
    (more : number < initial.search.config.generations) (tall : ¬run.Fits) :
    ∃ final, complete initial = (.error (.fitness (.render (.fault .overflow))), final) := by
  have one := generation_ensures (reached.evolved fresh inhabited) inhabited number
  rcases ended : generation number run with ⟨_ | stops, final⟩
  · cases one.of_error ended with
    | exhausted fits empty => exact absurd fits tall
    | unnamed fits directory => exact absurd fits tall
    | overflow tall =>
        refine ⟨final, ?_⟩
        rw [reached.complete_eq inhabited (Nat.le_of_lt more),
          show initial.search.config.generations - number =
            (initial.search.config.generations - (number + 1)) + 1 by omega]
        exact bind_of_error (bind_of_error ended)
  · exact absurd (one.of_ok ended).1 tall

end Run

/-! ## Words that deepen a program -/

private theorem Search.offspring_lone {individual : Individual} {generations mutations : Nat} {program : Program}
    {source after : Source}
    (mutated : individual.program.mutateTimes Config.registers mutations source = (.ok program, after)) :
    offspring (.lone generations mutations) [individual] source = (.ok [{ program }], after) := by
  have bred : child (.lone generations mutations) [individual] 0 source = (.ok (some program), after) :=
    map_of_ok mutated
  have filled : children (.lone generations mutations) [individual] [0] source =
      (.ok [{ program }], after) := bind_of_ok (adapt_of_ok bred)
  exact bind_of_ok filled

namespace Run

variable {generations mutations : Nat}

/-- With the words that deepen a program, a run with one individual breeds a program that is as deep as it has
been mutated. -/
theorem deepening_reaches (goal : GrayImage) (inhabited : goal.pixels ≠ 0) (started : 0 < generations)
    (small : mutations < 2 ^ 30) {words rest : List UInt32}
    (deepens : words = (List.range' 0 mutations).flatMap Program.deepeningWords ++ rest) :
    ∃ run, (create goal (.lone generations mutations) (.listed words) none false {}).Reaches 1 run ∧
      run.search.population = [{ program := Program.deep mutations }] := by
  let initial := create goal (.lone generations mutations) (.listed words) none false {}
  have fresh : initial.Fresh := create_fresh _ _ _ _ _ _
  obtain ⟨run, begun, alone, listed⟩ : ∃ run, start initial = (.ok (), run) ∧
      run.search.population = [Individual.seed] ∧ run.search.source = .listed words := ⟨_, rfl, rfl, rfl⟩
  have reached : initial.Reaches 0 run := .start begun
  have evolved := reached.evolved fresh inhabited
  have fits : run.Fits := by
    intro individual member
    refine (evolved.programs individual member).fits.mono ?_
    rw [Nat.zero_mul]
    decide
  obtain ⟨errors, evaluated⟩ := (evolved.errors inhabited).1 fits
  obtain ⟨candidates, known⟩ := Search.exists_candidates evaluated
  have programs := Search.programs_of_candidates known
  rw [alone, List.map_singleton] at programs
  obtain ⟨only, rfl, program⟩ := List.map_eq_singleton_iff.mp programs
  have mutated : only.individual.program.mutateTimes Config.registers mutations (.listed words) =
      (.ok (Program.deep mutations), .listed rest) := by
    have deepened := Program.mutateTimes_deep mutations 0 (by omega) rest
    rw [← deepens, Nat.zero_add] at deepened
    rw [Champion.individual, program]
    exact deepened
  have first : Champion.ranked [only] = [only] := List.mergeSort_singleton only
  have offspring : Search.offspring run.search.config
      ((Champion.ranked [only]).map Champion.individual) run.search.source =
        (.ok [{ program := Program.deep mutations }], .listed rest) := by
    rw [first, listed, evolved.config]
    exact Search.offspring_lone mutated
  have named : run.outputDirectory ≠ some "" := by
    rw [evolved.outputDirectory]
    exact (Option.some_ne_none "").symm
  have patient : run.search.config.patience = none := congrArg Config.patience evolved.config
  obtain ⟨after, bred, deep⟩ :=
    generation_goes_on evolved inhabited fits named patient known offspring
  exact ⟨after, .next reached started bred, deep⟩

/-- With as many mutations as the stack has cells, that program overflows in the second generation. -/
theorem deepening_overflows (goal : GrayImage) (inhabited : goal.pixels ≠ 0) (again : 1 < generations)
    (many : Stack.evaluationCapacity ≤ mutations) (small : mutations < 2 ^ 30) :
    ∃ final, complete (create goal (.lone generations mutations)
        (.listed ((List.range' 0 mutations).flatMap Program.deepeningWords)) none false {}) =
      (.error (.fitness (.render (.fault .overflow))), final) := by
  rcases deepening_reaches goal inhabited (Nat.lt_trans Nat.one_pos again) small (List.append_nil _).symm with
    ⟨run, reached, only⟩
  refine reached.complete_of_tall (create_fresh _ _ _ _ _ _) inhabited again fun fits => ?_
  rcases fits _ (only ▸ List.mem_singleton_self _) with ⟨peak, within, taken⟩
  have peakIs := (Program.course_deep mutations).symm.trans taken
  cases peakIs
  omega

/-! ## Runs that complete -/

/-- A run without files completes or runs out of words exactly if every program that it evaluates fits on the
stack. Otherwise it ends in an overflow. -/
theorem completes_iff_fits (goal : GrayImage) (config : Config) (words : List UInt32)
    (inhabited : goal.pixels ≠ 0) :
    let initial := create goal config (.listed words) none false {}
    (((∃ final, complete initial = (.ok (), final)) ∨
        ∃ final, complete initial = (.error (.variation (.draw .outOfWords)), final)) ↔
      ∀ number run, initial.Reaches number run → number < config.generations →
        ∀ individual ∈ run.search.population,
          individual.program.Fits 0 1 Stack.evaluationCapacity) ∧
      ∀ cause final, complete initial = (.error cause, final) →
        cause = .variation (.draw .outOfWords) ∨ cause = .fitness (.render (.fault .overflow)) := by
  intro initial
  have fresh : initial.Fresh := create_fresh goal config words none false {}
  have ensured := complete_ensures fresh inhabited
  refine ⟨⟨?_, fun fits => ?_⟩, fun cause final failed => ?_⟩
  · intro settled number run reached more
    by_cases fits : run.Fits
    · exact fits
    · rcases reached.complete_of_tall fresh inhabited more fits with ⟨final, overflowed⟩
      rcases settled with ⟨other, ended⟩ | ⟨other, ended⟩
      · cases overflowed.symm.trans ended
      · cases overflowed.symm.trans ended
  · rcases ended : complete initial with ⟨cause | _, final⟩
    · cases ensured.of_error ended with
      | exhausted empty => exact Or.inr ⟨final, rfl⟩
      | unnamed directory => cases directory
      | overflow reached more tall => exact absurd (fits _ _ reached more) tall
    · exact Or.inl ⟨final, rfl⟩
  · cases ensured.of_error failed with
    | exhausted empty => exact Or.inl rfl
    | unnamed directory => cases directory
    | overflow reached more tall => exact Or.inr rfl

/-- A run that breeds two sums, the second of which is not evaluated any more. -/
theorem completes_iff_fits_of_bred :
    let words := (List.range' 0 2).flatMap Program.deepeningWords
    let initial := create (GrayImage.black 1 1) (.lone 2 1) (.listed words) none false {}
    (GrayImage.black 1 1).pixels ≠ 0 ∧ (∃ final, complete initial = (.ok (), final)) ∧
      (∃ run, initial.Reaches 1 run ∧ run.search.population = [{ program := Program.deep 1 }]) ∧
      ∀ number run, initial.Reaches number run → number < 2 → ∀ individual ∈ run.search.population,
        individual.program.Fits 0 1 Stack.evaluationCapacity := by
  intro words initial
  have inhabited : (GrayImage.black 1 1).pixels ≠ 0 := by decide
  have succeeds : (complete initial).1 = .ok () := by decide +kernel
  have completes : ∃ final, complete initial = (.ok (), final) := ⟨_, Prod.ext succeeds rfl⟩
  exact ⟨inhabited, completes, deepening_reaches _ inhabited Nat.two_pos (by decide) rfl,
    (completes_iff_fits _ _ words inhabited).1.mp (.inl completes)⟩

theorem deepening_overflows_on_one_pixel :
    ∃ final, complete (create (GrayImage.black 1 1) (.lone 2 64)
        (.listed ((List.range' 0 64).flatMap Program.deepeningWords)) none false {}) =
      (.error (.fitness (.render (.fault .overflow))), final) :=
  deepening_overflows (GrayImage.black 1 1) (by decide) (by decide) (by decide) (by decide)

/-! ## What a search can hold -/

/-- Every generation that a run reaches is full, and its programs are evolved: they consist of words that the
search can use, and they run on a stack of one cell more than they have been mutated, where they leave one
number. Such programs can be compiled, folded, printed and mutated. A run fails only if the words run out, if
it is given a directory with an empty name, or if a program of a generation that has been mutated often enough
overflows. -/
theorem reached_programs_usable (goal : GrayImage) (config : Config) (words : List UInt32)
    (outputDirectory : Option String) (verbose : Bool) (transcript : Transcript)
    (inhabited : goal.pixels ≠ 0) :
    let initial := create goal config (.listed words) outputDirectory verbose transcript
    (∀ number run, initial.Reaches number run →
      run.search.population.length = config.populationSize ∧
        ∀ individual ∈ run.search.population,
          let bound := 1 + number * config.mutationsPerChild
          individual.program.Evolved bound ∧ individual.program ≠ [] ∧ individual.program.Usable ∧
            ∀ (registers : Registers) (capacity : Nat), registers.size = Config.registers →
              bound ≤ capacity →
                ∃ stack, individual.program.runOn registers (Stack.empty capacity) = .ok stack ∧
                  stack.height = 1) ∧
      ∀ cause final, complete initial = (.error cause, final) → RunFails initial cause final := by
  intro initial
  have fresh : initial.Fresh := create_fresh goal config words outputDirectory verbose transcript
  refine ⟨fun number run reached => ?_, fun cause final failed =>
    (complete_ensures fresh inhabited).of_error failed⟩
  have evolved := reached.evolved fresh inhabited
  refine ⟨evolved.size, fun individual member => ?_⟩
  have program := evolved.programs individual member
  exact ⟨program, program.ne_nil, program.usable, fun registers capacity two roomy =>
    program.runs two roomy⟩

/-- The generation after the words that deepen a program, which a longer stack could run, and the end of this run. -/
theorem reached_programs_usable_after_deepening :
    let words := (List.range' 0 64).flatMap Program.deepeningWords
    let initial := create (GrayImage.black 1 1) (.lone 2 64) (.listed words) none false {}
    (GrayImage.black 1 1).pixels ≠ 0 ∧
      (∃ run, initial.Reaches 1 run ∧ run.search.population = [{ program := Program.deep 64 }] ∧
        (Program.deep 64).Evolved 65 ∧ (Program.deep 64).Usable ∧
        ∃ stack, (Program.deep 64).runOn #[0, 0] (Stack.empty 65) = .ok stack ∧ stack.height = 1) ∧
      ∃ final, complete initial = (.error (.fitness (.render (.fault .overflow))), final) ∧
        RunFails initial (.fitness (.render (.fault .overflow))) final := by
  intro words initial
  have inhabited : (GrayImage.black 1 1).pixels ≠ 0 := by decide
  obtain ⟨usable, fails⟩ := reached_programs_usable (GrayImage.black 1 1) (.lone 2 64) words none false {} inhabited
  obtain ⟨run, reached, only⟩ := deepening_reaches (GrayImage.black 1 1) inhabited Nat.two_pos (by decide)
    (List.append_nil words).symm
  obtain ⟨final, overflowed⟩ := deepening_overflows (GrayImage.black 1 1) inhabited Nat.one_lt_two
    (show Stack.evaluationCapacity ≤ 64 from Nat.le_refl _) (by decide)
  obtain ⟨evolved, -, use, runs⟩ := (usable 1 run reached).2 _ (only ▸ List.mem_singleton_self _)
  exact ⟨inhabited, ⟨run, reached, only, evolved, use, runs #[0, 0] 65 rfl (by decide)⟩, final, overflowed,
    fails _ final overflowed⟩

end Run

end EvoRaster
