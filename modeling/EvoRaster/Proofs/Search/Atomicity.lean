import EvoRaster.Proofs.Search.Copying

/-!
Contract: steps of a generation that fail.

Owns:
- `Search.evaluateInSlots`, an evaluation that writes the errors slot after slot, and `evaluateInSlots_eq`, by which it
  does what `evaluate` does;
- `EvaluationFails` and `RankingFails`, the reasons for which these steps fail, beside `BreedingFails`;
- `failed_steps_keep_search`: a step fails for one of its reasons and leaves the search as it was, but for the words
  that breeding has drawn.

Each step works on all individuals and can fail at any of them. Nothing has to be undone because it writes last: an
evaluation when all errors are known, a ranking when all individuals have one, and breeding in copies.
-/

namespace EvoRaster

namespace Search

/-! ## Evaluation in slots -/

/-- The errors of some individuals, computed one after the other. -/
def measure : List Individual → SearchStep (List Float)
  | [] => return []
  | individual :: rest => do
      let search ← get
      let error ← (search.goal.programError search.config.model individual.program).mapError SearchError.fitness
      let errors ← measure rest
      return error :: errors

/-- Writes errors to the slots from the given one on. -/
def writeErrors : Nat → List Float → SearchStep Unit
  | _, [] => return
  | slot, error :: errors => do
      modify fun search =>
        { search with population := search.population.modify slot fun individual => individual.evaluated error }
      writeErrors (slot + 1) errors

def evaluateInSlots : SearchStep Unit := do
  let errors ← measure (← get).population
  writeErrors 0 errors

theorem measure_cons (search : Search) (first : Individual) (rest : List Individual) :
    measure (first :: rest) search =
      ((liftM ((search.goal.programError search.config.model first.program).mapError SearchError.fitness) :
        SearchStep Float) >>= fun error => measure rest >>= fun errors => pure (error :: errors)) search := rfl

theorem measure_run (search : Search) (individuals : List Individual) :
    measure individuals search =
      ((individuals.mapM fun individual =>
        search.goal.programError search.config.model individual.program).mapError SearchError.fitness, search) := by
  induction individuals with
  | nil => rfl
  | cons first rest inductionHypothesis =>
      rw [mapM_cons, measure_cons]
      cases search.goal.programError search.config.model first.program with
      | error cause => rfl
      | ok error =>
          rw [ok_bind]
          cases remaining : rest.mapM fun individual =>
              search.goal.programError search.config.model individual.program with
          | error cause =>
              rw [remaining] at inductionHypothesis
              exact (bind_of_ok rfl).trans (bind_of_error inductionHypothesis)
          | ok errors =>
              rw [remaining] at inductionHypothesis
              exact (bind_of_ok rfl).trans (bind_of_ok inductionHypothesis)

/-- The slots before `written.length` have their errors, and those behind get them now. -/
private theorem writeErrors_run (search : Search) {written unwritten : Population} {errors : List Float}
    (slots : search.population = written ++ unwritten) (counted : errors.length = unwritten.length) :
    writeErrors written.length errors search =
      (.ok (), { search with population := written ++ List.zipWith Individual.evaluated unwritten errors }) := by
  induction errors generalizing search written unwritten with
  | nil =>
      obtain rfl := List.length_eq_zero_iff.mp counted.symm
      rw [List.zipWith_nil_left, ← slots]
      rfl
  | cons error errors inductionHypothesis =>
      obtain ⟨first, rest, rfl⟩ := List.exists_cons_of_length_eq_add_one counted.symm
      have here : written.length < search.population.length := by
        rw [slots, List.length_append, List.length_cons]
        omega
      have next : search.population.modify written.length (fun individual => individual.evaluated error) =
          (written ++ [first.evaluated error]) ++ rest := by
        rw [List.modify_eq_take_cons_drop here]
        simp [slots]
      have last := inductionHypothesis { search with population := _ } next (Nat.succ.inj counted)
      rw [List.length_append, List.append_assoc, List.singleton_append] at last
      exact last

/-- Errors that are written one by one after the last of them is known are written at once. -/
theorem evaluateInSlots_eq : evaluateInSlots = evaluate := by
  funext search
  have inSlots : evaluateInSlots search = (measure search.population >>= writeErrors 0) search := rfl
  have measured := measure_run search search.population
  rw [← errors] at measured
  rw [inSlots, evaluate_run]
  cases known : search.errors with
  | error cause =>
      rw [known] at measured
      exact bind_of_error measured
  | ok errors =>
      rw [known] at measured
      have counted : errors.length = search.population.length := (forall₂_of_mapM known).length_eq.symm
      exact (bind_of_ok measured).trans (writeErrors_run search (List.nil_append _).symm counted)

/-! ## When a step fails -/

/-- The first individual whose program has no error, and the reason why it has none. -/
inductive EvaluationFails (search : Search) : SearchError → Prop where
  | intro {before rest : Population} {individual : Individual} {cause : FitnessError}
      (slots : search.population = before ++ individual :: rest)
      (earlier : ∀ other ∈ before, ∃ error, search.goal.programError search.config.model other.program = .ok error)
      (failing : search.goal.programError search.config.model individual.program = .error cause) :
      EvaluationFails search (.fitness cause)

/-- There is an individual that was not evaluated, or there is no individual. -/
inductive RankingFails (search : Search) : SearchError → Prop where
  | notEvaluated {individual : Individual} (member : individual ∈ search.population)
      (unknown : individual.error = none) : RankingFails search (.population .notEvaluated)
  | noIndividual (empty : search.population = []) : RankingFails search (.population .noIndividual)

theorem evaluate_ends (search : Search) :
    Ensures evaluate search
      (fun _ _ => ∀ individual ∈ search.population,
        ∃ error, search.goal.programError search.config.model individual.program = .ok error)
      fun cause after => after = search ∧ EvaluationFails search cause := by
  unfold Ensures
  rw [evaluate_run]
  cases known : search.errors with
  | ok errors => exact mapM_isOk_iff.mp ⟨errors, known⟩
  | error cause =>
      obtain ⟨before, individual, rest, slots, earlier, failing⟩ := exists_of_mapM_error known
      exact ⟨rfl, .intro slots earlier failing⟩

private theorem exists_candidates_of_evaluated {population : Population}
    (evaluated : ∀ individual ∈ population, individual.error ≠ none) :
    ∃ candidates : List Champion, population = candidates.map Champion.individual := by
  induction population with
  | nil => exact ⟨[], rfl⟩
  | cons first rest inductionHypothesis =>
      rw [List.forall_mem_cons] at evaluated
      obtain ⟨error, known⟩ := Option.ne_none_iff_exists'.mp evaluated.1
      obtain ⟨candidates, rfl⟩ := inductionHypothesis evaluated.2
      refine ⟨{ program := first.program, error } :: candidates, ?_⟩
      rw [List.map_cons, Champion.individual, ← known]

private theorem ranked_of_unevaluated {population : Population} {individual : Individual}
    (member : individual ∈ population) (unknown : individual.error = none) : population.ranked = .error .notEvaluated := by
  have refused : (population.mapM fun individual => do return (← individual.knownError, individual)) =
      Except.error PopulationError.notEvaluated := by
    refine mapM_error (fun other _ => ?_) ⟨individual, member, ?_⟩
    · rw [Individual.knownError]
      cases other.error with
      | none => exact .inr rfl
      | some error => exact .inl ⟨_, rfl⟩
    · rw [Individual.knownError, unknown]
      rfl
  rw [Population.ranked, refused, error_bind]

theorem rank_ends (search : Search) :
    Ensures rank search
      (fun _ _ => search.population ≠ [] ∧ ∀ individual ∈ search.population, individual.error ≠ none)
      fun cause after => after = search ∧ RankingFails search cause := by
  by_cases evaluated : ∀ individual ∈ search.population, individual.error ≠ none
  · obtain ⟨candidates, known⟩ := exists_candidates_of_evaluated evaluated
    by_cases empty : search.population = []
    · refine rank_of_nil empty ⟨?_, .noIndividual empty⟩
      rw [← empty]
    · have populated : candidates ≠ [] := by
        rintro rfl
        exact empty known
      obtain ⟨best, others, sorted⟩ := Champion.exists_ranked populated
      exact Ensures.of_success (rank_of_candidates known sorted) ⟨empty, evaluated⟩
  · rcases Classical.not_forall.mp evaluated with ⟨individual, failing⟩
    rcases Classical.not_imp.mp failing with ⟨member, unknown⟩
    have refused : search.population.ranked.mapError SearchError.population =
        .error (.population .notEvaluated) := by
      rw [ranked_of_unevaluated member (not_not.mp unknown), mapError_error]
    unfold rank
    refine Ensures.of_get_bind (Ensures.bind (Ensures.of_failed_outcome refused ?_))
    exact ⟨rfl, .notEvaluated member (not_not.mp unknown)⟩

theorem evolve_ends (search : Search) :
    Ensures evolve search
      (fun _ after => Bred search.config search.population search.source after.population after.source)
      fun cause after =>
        after = { search with source := after.source } ∧
          BreedingFails search.config search.population search.source cause after.source ∧
          ∀ (storage : Storage) (ranked : List Stored), storage.Holds ranked search.population →
            storage.source = search.source →
              ∃ later, Storage.offspring search.config ranked storage = (.error cause, later) ∧
                later.source = after.source ∧ later.Holds ranked search.population ∧ storage.Keeps later := by
  have ends := offspring_ends search.config search.population search.source
  unfold Ensures
  rw [evolve_run]
  rcases bred : offspring search.config search.population search.source with ⟨cause | population, source⟩
  · refine ⟨rfl, ends.of_error bred, fun storage ranked holds same => ?_⟩
    rw [← same] at bred
    obtain ⟨later, failed, drawn, keeps⟩ := Storage.offspring_of_error holds bred
    exact ⟨later, failed, drawn, keeps.holds holds, keeps⟩
  · exact ends.of_ok bred

/-! ## Steps that fail -/

/-- A step of a generation fails for one of its reasons, and leaves the search as it was, but for the words that
breeding has drawn. This is so where errors are written slot after slot too, and where programs are mutated in the
places in which they are stored. -/
theorem failed_steps_keep_search (search : Search) :
    Ensures evaluate search
        (fun _ _ => ∀ individual ∈ search.population,
          ∃ error, search.goal.programError search.config.model individual.program = .ok error)
        (fun cause after => after = search ∧ EvaluationFails search cause) ∧
      evaluateInSlots search = evaluate search ∧
      Ensures rank search
        (fun _ _ => search.population ≠ [] ∧ ∀ individual ∈ search.population, individual.error ≠ none)
        (fun cause after => after = search ∧ RankingFails search cause) ∧
      Ensures evolve search
        (fun _ after => Bred search.config search.population search.source after.population after.source)
        fun cause after =>
          after = { search with source := after.source } ∧
            BreedingFails search.config search.population search.source cause after.source ∧
            ∀ (storage : Storage) (ranked : List Stored), storage.Holds ranked search.population →
              storage.source = search.source →
                ∃ later, Storage.offspring search.config ranked storage = (.error cause, later) ∧
                  later.source = after.source ∧ later.Holds ranked search.population ∧ storage.Keeps later :=
  ⟨evaluate_ends search, congrFun evaluateInSlots_eq search, rank_ends search, evolve_ends search⟩

end Search

end EvoRaster
