import EvoRaster.Proofs.Search.Ranking
import EvoRaster.Proofs.Variation.Evolved

/-!
Contract: the steps of a generation, one by one.

Owns:
- `Search.candidates`, the programs of a population with their errors;
- `evaluate_of_candidates`, `rank_of_candidates` and `evolve_run`: what each step makes of the state of a search;
- `errors_of_fits` and `errors_of_tall`: when the errors of evolved programs are known;
- `offspring_reliable`: the next generation is as large as the configuration says, and its programs are
  evolved.
-/

namespace EvoRaster

theorem Population.best_cons (first : Individual) (rest : Population) :
    Population.best (first :: rest) = .ok first := by
  have here : position? (first :: rest).length 0 = some ⟨0, Nat.succ_pos _⟩ :=
    position?_eq_some_iff.mpr (Or.inl rfl)
  rw [best, get, here]
  rfl

/-- A program with its error against a goal. -/
def GrayImage.candidate (goal : GrayImage) (model : ErrorModel) (program : Program) :
    Except FitnessError Champion :=
  (goal.programError model program).map fun error => { program, error }

theorem GrayImage.candidate_eq_ok_iff {goal : GrayImage} {model : ErrorModel} {program : Program}
    {candidate : Champion} :
    goal.candidate model program = .ok candidate ↔
      candidate.program = program ∧ goal.programError model program = .ok candidate.error := by
  rw [GrayImage.candidate]
  cases goal.programError model program with
  | error cause => simp
  | ok error =>
      rw [map_ok, Except.ok.injEq, Except.ok.injEq]
      exact ⟨fun same => same ▸ ⟨rfl, rfl⟩, fun same => by rw [← same.1, same.2]⟩

namespace Search

/-! ## Evaluation -/

/-- The programs of a population with their errors, in the order of their slots. -/
def candidates (search : Search) : Except FitnessError (List Champion) :=
  search.population.mapM fun individual => search.goal.candidate search.config.model individual.program

theorem errors_eq (search : Search) : search.errors = search.candidates.map (List.map Champion.error) := by
  rw [errors, candidates, ← mapM_map]
  congr 1
  funext individual
  rw [GrayImage.candidate]
  cases search.goal.programError search.config.model individual.program <;> rfl

theorem exists_candidates {search : Search} {errors : List Float} (known : search.errors = .ok errors) :
    ∃ candidates, search.candidates = .ok candidates := by
  rw [errors_eq] at known
  cases evaluated : search.candidates with
  | error cause => rw [evaluated] at known; cases known
  | ok candidates => exact ⟨candidates, rfl⟩

theorem evaluate_run (search : Search) :
    evaluate search =
      match search.errors with
      | .ok errors =>
          (.ok (), { search with population := List.zipWith Individual.evaluated search.population errors })
      | .error cause => (.error (.fitness cause), search) := by
  change ((liftM (search.errors.mapError SearchError.fitness) : SearchStep (List Float)) >>= fun errors =>
    set { search with population := List.zipWith Individual.evaluated search.population errors })
      search = _
  cases search.errors <;> rfl

section Candidates

variable {search : Search} {candidates : List Champion}

theorem forall₂_candidates (known : search.candidates = .ok candidates) :
    List.Forall₂ (fun individual candidate =>
      search.goal.candidate search.config.model individual.program = .ok candidate)
      search.population candidates := forall₂_of_mapM known

theorem programs_of_candidates (known : search.candidates = .ok candidates) :
    candidates.map Champion.program = search.population.map Individual.program := by
  have each := forall₂_candidates known
  clear known
  generalize search.population = population at each ⊢
  induction each with
  | nil => rfl
  | cons one _ inductionHypothesis =>
      rw [List.map_cons, List.map_cons, inductionHypothesis, (GrayImage.candidate_eq_ok_iff.mp one).1]

theorem length_candidates (known : search.candidates = .ok candidates) :
    candidates.length = search.population.length := (forall₂_candidates known).length_eq.symm

/-- A population that is not empty has a best candidate. -/
theorem exists_best (known : search.candidates = .ok candidates) (populated : search.population ≠ []) :
    ∃ best others, Champion.ranked candidates = best :: others := by
  apply Champion.exists_ranked
  rw [← List.length_pos_iff, length_candidates known]
  exact List.length_pos_iff.mpr populated

/-- The error of a candidate is that of its program. -/
theorem programError_of_candidates (known : search.candidates = .ok candidates) :
    ∀ candidate ∈ candidates,
      search.goal.programError search.config.model candidate.program = .ok candidate.error := by
  have each := forall₂_candidates known
  clear known
  generalize search.population = population at each
  induction each with
  | nil => simp
  | cons one _ inductionHypothesis =>
      obtain ⟨same, error⟩ := GrayImage.candidate_eq_ok_iff.mp one
      exact List.forall_mem_cons.mpr ⟨same ▸ error, inductionHypothesis⟩

/-- An evaluation gives every individual its error and leaves it in its slot. -/
theorem evaluate_of_candidates (known : search.candidates = .ok candidates) :
    evaluate search = (.ok (), { search with population := candidates.map Champion.individual }) := by
  have evaluated : List.zipWith Individual.evaluated search.population (candidates.map Champion.error) =
      candidates.map Champion.individual := by
    have each := forall₂_candidates known
    clear known
    generalize search.population = population at each ⊢
    induction each with
    | nil => rfl
    | cons one _ inductionHypothesis =>
        rw [List.map_cons, List.map_cons, List.zipWith_cons_cons, inductionHypothesis, Champion.individual,
          (GrayImage.candidate_eq_ok_iff.mp one).1]
        rfl
  rw [evaluate_run, errors_eq, known]
  simp only [map_ok, evaluated]

private theorem noteBest_eq (search : Search) (best : Champion) :
    search.noteBest best.program best.error =
      { search with champion := if best.error < search.bestError then some best else search.champion } := by
  unfold noteBest
  split <;> rfl

/-- Ranking orders the population and notes the individual at its head. -/
theorem rank_of_candidates {best : Champion} {others : List Champion}
    (evaluated : search.population = candidates.map Champion.individual)
    (sorted : Champion.ranked candidates = best :: others) :
    rank search =
      (.ok (), { search with
        population := (Champion.ranked candidates).map Champion.individual
        champion := if best.error < search.bestError then some best else search.champion }) := by
  have ranked : search.population.ranked.mapError SearchError.population =
      .ok ((Champion.ranked candidates).map Champion.individual) := by
    rw [evaluated, Champion.ranked_individuals]
    rfl
  have first : (Population.best ((Champion.ranked candidates).map Champion.individual)).mapError
      SearchError.population = .ok best.individual := by
    rw [sorted, List.map_cons, Population.best_cons]
    rfl
  apply Ensures.ends
  unfold rank
  refine Ensures.of_get_bind (Ensures.bind (Ensures.of_outcome ranked ?_))
  refine Ensures.bind (Ensures.of_set (Ensures.bind (Ensures.of_outcome first ?_)))
  refine Ensures.bind (Ensures.of_outcome rfl (Ensures.of_modify ⟨rfl, ?_⟩))
  exact noteBest_eq _ best

/-- Nobody can be ranked first in an empty population. -/
theorem rank_of_nil (empty : search.population = []) {done : Unit → Search → Prop}
    {failed : SearchError → Search → Prop}
    (holds : failed (.population .noIndividual) { search with population := [] }) :
    Ensures rank search done failed := by
  have ranked : search.population.ranked.mapError SearchError.population = .ok [] := by
    have nobody := Champion.ranked_individuals []
    rw [Champion.ranked, List.mergeSort_nil, List.map_nil] at nobody
    rw [empty, nobody, mapError_ok]
  unfold rank
  refine Ensures.of_get_bind (Ensures.bind (Ensures.of_outcome ranked ?_))
  exact Ensures.bind (Ensures.of_set (Ensures.bind holds))

end Candidates

/-- A search whose programs fit on the stack knows their errors. -/
theorem errors_of_fits {search : Search} {bound : Nat}
    (evolved : ∀ individual ∈ search.population, individual.program.Evolved bound)
    (inhabited : search.goal.pixels ≠ 0)
    (fit : ∀ individual ∈ search.population, individual.program.Fits 0 1 Stack.evaluationCapacity) :
    ∃ errors, search.errors = .ok errors := by
  refine mapM_isOk_iff.mpr fun individual member => ?_
  exact ((evolved individual member).programError search.config.model inhabited).1 (fit individual member)

/-- One program that does not fit is enough for an overflow. -/
theorem errors_of_tall {search : Search} {bound : Nat}
    (evolved : ∀ individual ∈ search.population, individual.program.Evolved bound)
    (inhabited : search.goal.pixels ≠ 0)
    (tall : ¬∀ individual ∈ search.population,
      individual.program.Fits 0 1 Stack.evaluationCapacity) :
    search.errors = .error (.render (.fault .overflow)) := by
  refine mapM_error (fun individual member => ?_) ?_
  · have outcome := (evolved individual member).programError search.config.model inhabited
    by_cases fits : individual.program.Fits 0 1 Stack.evaluationCapacity
    · exact Or.inl (outcome.1 fits)
    · exact Or.inr (outcome.2 fits)
  · rcases Classical.not_forall.mp tall with ⟨individual, failing⟩
    rcases Classical.not_imp.mp failing with ⟨member, fails⟩
    exact ⟨individual, member,
      ((evolved individual member).programError search.config.model inhabited).2 fails⟩

/-! ## Breeding -/

theorem evolve_run (search : Search) :
    evolve search =
      match offspring search.config search.population search.source with
      | (.ok population, source) => (.ok (), { search with population, source })
      | (.error cause, source) => (.error cause, { search with source }) := by
  rcases bred : offspring search.config search.population search.source with ⟨outcome, source⟩
  change ((set { search with source := (offspring search.config search.population search.source).2 } >>=
    fun _ => (liftM (offspring search.config search.population search.source).1 : SearchStep Population) >>=
      fun population => modify fun search => { search with population }) : SearchStep Unit) search = _
  rw [bred]
  cases outcome <;> rfl

theorem offspring_of_evolve {search after : Search} (bred : evolve search = (.ok (), after)) :
    ∃ population source, offspring search.config search.population search.source = (.ok population, source) ∧
      after = { search with population, source } := by
  rw [evolve_run] at bred
  rcases answered : offspring search.config search.population search.source with ⟨_ | population, source⟩
  · rw [answered] at bred
    cases bred
  · rw [answered] at bred
    cases bred
    exact ⟨population, source, rfl, rfl⟩

section Offspring

variable {config : Config} {ranked : Population} {bound : Nat}

/-- Children are bred from parents that exist, slot after slot. -/
private theorem children_reliable (parents : config.parents ≤ ranked.length)
    (evolved : ∀ individual ∈ ranked, individual.program.Evolved bound) (slots : List Nat) :
    Reliable (.variation (.draw .outOfWords)) (children config ranked slots) fun population =>
      population.length = slots.length ∧
        ∀ individual ∈ population,
          individual.program.Evolved (bound + config.mutationsPerChild) := by
  induction slots with
  | nil => exact Reliable.of_pure ⟨rfl, fun individual member => absurd member List.not_mem_nil⟩
  | cons slot slots inductionHypothesis =>
      have inside : slot % config.parents < ranked.length :=
        Nat.lt_of_lt_of_le (Nat.mod_lt _ config.one_le_parents) parents
      have parent := evolved ranked[slot % config.parents] (List.getElem_mem inside)
      have bred : Reliable (.draw .outOfWords) (child config ranked slot) fun program =>
          ∃ mutated, program = some mutated ∧
            Program.Evolved mutated (bound + config.mutationsPerChild) := by
        unfold child
        rw [List.getElem?_eq_getElem inside]
        refine (parent.mutateTimes_evolved config.mutationsPerChild).bind fun mutated evolved => ?_
        exact Reliable.of_pure ⟨mutated, rfl, evolved⟩
      unfold children
      refine bred.adapt.bind ?_
      intro _ ended
      rcases ended with ⟨mutated, rfl, mutatedEvolved⟩
      refine inductionHypothesis.bind ?_
      intro others ended
      rcases ended with ⟨counted, othersEvolved⟩
      refine Reliable.of_pure ⟨by rw [List.length_cons, List.length_cons, counted], ?_⟩
      intro individual member
      rcases List.mem_cons.mp member with rfl | later
      · exact mutatedEvolved
      · exact othersEvolved individual later

/-- The next generation fills every slot, and its programs have changed by the mutations of a child at
most. -/
theorem offspring_reliable (sized : ranked.length = config.populationSize)
    (evolved : ∀ individual ∈ ranked, individual.program.Evolved bound) :
    Reliable (.variation (.draw .outOfWords)) (offspring config ranked) fun population =>
      population.length = config.populationSize ∧
        ∀ individual ∈ population,
          individual.program.Evolved (bound + config.mutationsPerChild) := by
  have parents : config.parents ≤ ranked.length := by
    rw [sized]
    exact config.parents_le
  refine (children_reliable parents evolved (List.range config.populationSize)).bind ?_
  intro bred ended
  rcases ended with ⟨counted, bredEvolved⟩
  rw [List.length_range] at counted
  have kept : (elites config ranked).length ≤ bred.length := by
    rw [elites, List.length_map, List.length_take, counted]
    exact Nat.le_trans (Nat.min_le_left _ _) config.elites_le
  refine Reliable.of_pure ⟨?_, fun individual member => ?_⟩
  · rw [List.length_append, List.length_drop, counted]
    omega
  · rcases List.mem_append.mp member with elite | child
    · rcases List.mem_map.mp elite with ⟨original, best, rfl⟩
      exact (evolved original (List.mem_of_mem_take best)).mono (Nat.le_add_right _ _)
    · exact bredEvolved individual (List.mem_of_mem_drop child)

end Offspring

/-- Breeding replaces the population and takes words from the list, or it uses the list up. -/
theorem evolve_ensures {search : Search} {words : List UInt32} {bound : Nat}
    (listed : search.source = .listed words)
    (sized : search.population.length = search.config.populationSize)
    (evolved : ∀ individual ∈ search.population, individual.program.Evolved bound) :
    Ensures evolve search
      (fun _ after => ∃ (population : Population) (rest : List UInt32),
        after = { search with population, source := .listed rest } ∧
          population.length = search.config.populationSize ∧
          ∀ individual ∈ population,
            individual.program.Evolved (bound + search.config.mutationsPerChild))
      (fun cause after => cause = .variation (.draw .outOfWords) ∧ after.source = .listed []) := by
  have bred := offspring_reliable sized evolved words
  unfold Ensures at bred ⊢
  rw [evolve_run, listed]
  split at bred
  · rename_i population source ended
    rcases bred with ⟨⟨counted, programs⟩, rest, rfl⟩
    rw [ended]
    exact ⟨population, rest, rfl, counted, programs⟩
  · rename_i cause source ended
    rw [ended]
    exact bred

end Search

end EvoRaster
