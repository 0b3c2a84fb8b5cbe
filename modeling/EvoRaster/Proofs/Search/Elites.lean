import EvoRaster.Proofs.Search.Champion

/-!
Contract: what elites keep.

Owns:
- `Settled.keeps_elites`, by which the candidates of the next generation begin with the elites of this one, errors
  included;
- `Run.Ranks`, the ranked population of each generation of a run;
- `elites_never_worsen`: no rank among the elites has a larger error in the next generation, and with one elite the
  best errors in the history of a run never increase.

An elite is evaluated again, by the same function of its program. The others of its generation can only push it
back, and whoever stands before it has no larger error.
-/

namespace EvoRaster

open Numeric

/-! ## The elites among the candidates of the next generation -/

namespace Search

/-- The next generation begins with the elites. -/
theorem offspring_elites {config : Config} {ranked population : Population} {source after : Source}
    (bred : offspring config ranked source = (.ok population, after)) :
    ∃ others, population = elites config ranked ++ others := by
  have ensured : Ensures (offspring config ranked) source
      (fun population _ => ∃ others, population = elites config ranked ++ others) fun _ _ => True := by
    unfold offspring
    refine Ensures.bind (Ensures.intro (fun children _ _ => ?_) fun _ _ _ => trivial)
    exact Ensures.of_pure ⟨_, rfl⟩
  exact ensured.of_ok bred

private theorem elites_individuals (config : Config) (candidates : List Champion) :
    elites config (candidates.map Champion.individual) =
      (candidates.take config.elites).map fun candidate => { program := candidate.program } := by
  rw [elites, ← List.map_take, List.map_map]
  rfl

/-- Programs whose errors are known get the same errors again. -/
private theorem candidates_of_known {goal : GrayImage} {model : ErrorModel} {kept : List Champion}
    (known : ∀ candidate ∈ kept, goal.programError model candidate.program = .ok candidate.error) :
    (kept.map fun candidate => ({ program := candidate.program } : Individual)).mapM
      (fun individual => goal.candidate model individual.program) = .ok kept := by
  induction kept with
  | nil => rfl
  | cons first rest inductionHypothesis =>
      rw [List.forall_mem_cons] at known
      have one : goal.candidate model first.program = .ok first :=
        GrayImage.candidate_eq_ok_iff.mpr ⟨rfl, known.1⟩
      rw [List.map_cons, mapM_cons, one, ok_bind, inductionHypothesis known.2, ok_bind]

end Search

namespace Run

section Settled

variable {number : Nat} {run ready : Run} {candidates next : List Champion} {best : Champion}
  {search : Search}

/-- The elites of a generation are the first candidates of the next, with the errors that they had. -/
theorem Settled.keeps_elites (settled : Settled number run candidates best ready)
    (bred : Search.evolve ready.search = (.ok (), search)) (known : search.candidates = .ok next) :
    ∃ others, next = (Champion.ranked candidates).take run.search.config.elites ++ others := by
  obtain ⟨population, source, offspring, rfl⟩ := Search.offspring_of_evolve bred
  obtain ⟨others, rfl⟩ := Search.offspring_elites offspring
  have again : ∀ candidate ∈ (Champion.ranked candidates).take run.search.config.elites,
      run.search.goal.programError run.search.config.model candidate.program = .ok candidate.error :=
    fun candidate member => Search.programError_of_candidates settled.known candidate
      ((Champion.ranked_perm candidates).mem_iff.mp (List.mem_of_mem_take member))
  rw [settled.search, Search.candidates] at known
  simp only [Search.settled] at known
  rw [List.mapM_append, Search.elites_individuals, Search.candidates_of_known again, ok_bind] at known
  cases rest : others.mapM fun individual =>
      run.search.goal.candidate run.search.config.model individual.program with
  | error cause => rw [rest] at known; cases known
  | ok results =>
      rw [rest] at known
      exact ⟨results, (Except.ok.inj known).symm⟩

/-- No rank among the elites has a larger error in the next generation. -/
theorem Settled.rank_le (settled : Settled number run candidates best ready)
    (bred : Search.evolve ready.search = (.ok (), search)) (known : search.candidates = .ok next)
    {rank : Nat} (elite : rank < run.search.config.elites)
    (inside : rank < (Champion.ranked candidates).length) :
    ∃ inside' : rank < (Champion.ranked next).length,
      (Champion.ranked next)[rank].error ≤ (Champion.ranked candidates)[rank].error := by
  obtain ⟨others, rfl⟩ := settled.keeps_elites bred known
  have within : rank < ((Champion.ranked candidates).take run.search.config.elites).length := by
    rw [List.length_take]
    omega
  have numbers := Search.numbers_of_candidates settled.known
  have numbers' := Search.numbers_of_candidates known
  have same := Champion.ranked_perm ((Champion.ranked candidates).take run.search.config.elites ++ others)
  have inside' : rank < (Champion.ranked
      ((Champion.ranked candidates).take run.search.config.elites ++ others)).length := by
    rw [Champion.length_ranked, List.length_append]
    omega
  refine ⟨inside', ?_⟩
  have notWorse := Champion.getElem_le_of_perm
    (fun candidate member => numbers' candidate (same.mem_iff.mp member)) (Champion.ranked_pairwise numbers')
    ((Champion.ranked_pairwise numbers).sublist (List.take_sublist _ _)) same within inside'
  rwa [List.getElem_take] at notWorse

end Settled

/-! ## Two generations of a run -/

/-- The run evaluates and ranks this generation, which leaves this population. -/
inductive Ranks (initial : Run) (number : Nat) : Population → Prop where
  | intro {run : Run} {evaluated ranked : Search} (reached : initial.Reaches number run)
      (more : number < initial.search.config.generations)
      (evaluates : Search.evaluate { run.search with generation := number } = (.ok (), evaluated))
      (ranks : Search.rank evaluated = (.ok (), ranked)) : Ranks initial number ranked.population

section Run

variable {initial run after : Run} {number : Nat}

theorem Reaches.unique (reached : initial.Reaches number run) (other : initial.Reaches number after) :
    run = after := by
  induction reached generalizing after with
  | start started =>
      cases other with
      | start started' =>
          rw [started] at started'
          exact (Prod.ext_iff.mp started').2
  | next reached more bred inductionHypothesis =>
      cases other with
      | next reached' more' bred' =>
          obtain rfl := inductionHypothesis reached'
          rw [bred] at bred'
          exact (Prod.ext_iff.mp bred').2

theorem Ranks.candidates {population : Population} (ranks : initial.Ranks number population)
    (fresh : initial.Fresh) (inhabited : initial.search.goal.pixels ≠ 0) :
    ∃ run candidates, initial.Reaches number run ∧ run.search.candidates = .ok candidates ∧
      population = (Champion.ranked candidates).map Champion.individual := by
  obtain ⟨reached, more, evaluates, ranks⟩ := ranks
  rename_i run evaluated ranked
  cases errors : ({ run.search with generation := number } : Search).errors with
  | error cause =>
      rw [Search.evaluate_run, errors] at evaluates
      cases evaluates
  | ok errors =>
      obtain ⟨candidates, known⟩ := Search.exists_candidates errors
      obtain ⟨best, others, sorted⟩ := Search.exists_best known (reached.evolved fresh inhabited).populated
      obtain ⟨-, rfl⟩ := Prod.ext_iff.mp ((Search.evaluate_of_candidates known).symm.trans evaluates)
      obtain ⟨-, rfl⟩ := Prod.ext_iff.mp ((Search.rank_of_candidates rfl sorted).symm.trans ranks)
      exact ⟨run, candidates, reached, known, rfl⟩

/-- A generation after which the run goes on has been settled and bred from. -/
theorem generation_breeds {bound : Nat} (evolved : Evolved initial bound run)
    (inhabited : initial.search.goal.pixels ≠ 0) (bred : generation number run = (.ok false, after)) :
    ∃ candidates best ready, Settled number run candidates best ready ∧
      Search.evolve ready.search = (.ok (), after.search) := by
  obtain ⟨candidates, best, advances⟩ :=
    (generation_advances (evolved.kept.inhabited inhabited) number).of_ok bred
  cases advances with
  | @goesOn ready population source settled _ _ offspring =>
      exact ⟨candidates, best, ready, settled, by rw [Search.evolve_run, offspring]⟩

end Run

/-! ## The history -/

/-- The best errors in the history never increase. -/
def Improves (run : Run) : Prop :=
  run.search.history.toList.Pairwise fun earlier later => later.bestError ≤ earlier.bestError

/-- The history improves, and the next best error will not be larger either. -/
structure Improving (run : Run) : Prop where
  history : run.Improves
  next : ∀ candidates best, run.search.candidates = .ok candidates →
    (Champion.ranked candidates).head? = some best →
      ∀ entry ∈ run.search.history, best.error ≤ entry.bestError

section Improving

variable {initial run ready after : Run} {number : Nat} {candidates : List Champion} {best : Champion}

theorem Improving.settled (improving : Improving run) (settled : Settled number run candidates best ready) :
    ready.Improves := by
  have earlier := improving.next candidates best settled.known settled.leads
  rw [Improves, settled.search]
  simpa [Search.settled, List.pairwise_append] using ⟨improving.history, earlier⟩

/-- With one elite at least, the best of the next generation is not worse than that of this one. -/
theorem Improving.bred (improving : Improving run) (settled : Settled number run candidates best ready)
    (bred : Search.evolve ready.search = (.ok (), after.search)) (elites : 1 ≤ run.search.config.elites) :
    Improving after := by
  have kept : after.search.history = ready.search.history := by
    obtain ⟨population, source, -, unchanged⟩ := Search.offspring_of_evolve bred
    rw [unchanged]
  have improves : after.Improves := by
    rw [Improves, kept]
    exact improving.settled settled
  refine ⟨improves, fun next best' known leads => ?_⟩
  obtain ⟨others, sorted⟩ := List.head?_eq_some_iff.mp settled.leads
  obtain ⟨others', sorted'⟩ := List.head?_eq_some_iff.mp leads
  have notWorse : best'.error ≤ best.error := by
    obtain ⟨inside, ordered⟩ := settled.rank_le bred known elites (by simp [sorted])
    simpa [sorted, sorted'] using ordered
  intro entry member
  rw [kept, settled.search] at member
  obtain earlier | rfl := Array.mem_push.mp member
  · exact Double.le_trans notWorse (improving.next candidates best settled.known settled.leads entry earlier)
  · exact notWorse

theorem Reaches.improving (reached : initial.Reaches number run) (fresh : initial.Fresh)
    (inhabited : initial.search.goal.pixels ≠ 0) (unrecorded : Records initial [] [] initial)
    (elites : 1 ≤ initial.search.config.elites) : Improving run := by
  induction reached with
  | start started =>
      have empty := ((start_records unrecorded).of_ok started).history
      rw [List.map_nil, List.map_eq_nil_iff] at empty
      refine ⟨by simp [Improves, empty], fun _ _ _ _ entry member => ?_⟩
      rw [← Array.mem_toList_iff, empty] at member
      cases member
  | next reached more bred inductionHypothesis =>
      have evolved := reached.evolved fresh inhabited
      obtain ⟨candidates, best, ready, settled, bred⟩ := generation_breeds evolved inhabited bred
      exact inductionHypothesis.bred settled bred (evolved.config ▸ elites)

/-- With one elite at least, the history of a run improves to its end, however it ends. -/
theorem complete_improves (fresh : initial.Fresh) (inhabited : initial.search.goal.pixels ≠ 0)
    (unrecorded : Records initial [] [] initial) (elites : 1 ≤ initial.search.config.elites) :
    Ensures complete initial (fun _ final => final.Improves) fun _ final => final.Improves := by
  have improving {number : Nat} {run : Run} (reached : initial.Reaches number run) : Improving run :=
    reached.improving fresh inhabited unrecorded elites
  have last (run : Run) (reached : initial.Reaches initial.search.config.generations run) :
      (∃ bound, Evolved initial bound run) ∧ run.Improves :=
    ⟨⟨_, reached.evolved fresh inhabited⟩, (improving reached).history⟩
  refine complete_rule last ?_ ?_
  · intro number run reached _
    have evolved := reached.evolved fresh inhabited
    have improves {candidates : List Champion} {best : Champion} {after : Run}
        (completed : Completed number run candidates best after) : after.Improves := by
      obtain ⟨ready, population, source, settled, rfl⟩ := completed
      have improves : ready.Improves := (improving reached).settled settled
      exact improves
    refine ((generation_completes evolved inhabited number).and
      (generation_ensures evolved inhabited number)).mono ?_ ?_
    · intro stops after ended _
      obtain ⟨⟨candidates, best, completed⟩, -, evolved'⟩ := ended
      exact ⟨⟨_, evolved'⟩, improves completed⟩
    · intro cause after ended
      obtain ⟨same | ⟨candidates, best, completed⟩, -⟩ := ended
      · rw [Improves, same]
        exact (improving reached).history
      · exact improves completed
  · intro run ended
    obtain ⟨⟨bound, evolved⟩, improves⟩ := ended
    refine (conclude_ensures evolved inhabited).mono (fun _ final same => ?_) fun _ _ never => never.elim
    rw [Improves, same]
    exact improves

end Improving

/-! ## A whole run -/

/-- No rank among the elites has a larger error in the next generation, whatever is drawn between the two. With one
elite at least, the best errors in the history of a run never increase. -/
theorem elites_never_worsen (goal : GrayImage) (config : Config) (words : List UInt32)
    (outputDirectory : Option String) (verbose : Bool) (transcript : Transcript)
    (inhabited : goal.pixels ≠ 0) :
    let initial := create goal config (.listed words) outputDirectory verbose transcript
    (∀ number before after, initial.Ranks number before → initial.Ranks (number + 1) after →
      ∀ rank < config.elites, ∃ old new, before[rank]?.bind Individual.error = some old ∧
        after[rank]?.bind Individual.error = some new ∧ new ≤ old) ∧
      (1 ≤ config.elites → ∀ outcome final, complete initial = (outcome, final) → final.Improves) := by
  intro initial
  have fresh : initial.Fresh := create_fresh goal config words outputDirectory verbose transcript
  refine ⟨?_, fun elites outcome final ended => ?_⟩
  · intro number before after ranks ranks' rank elite
    obtain ⟨run, candidates, reached, known, rfl⟩ := ranks.candidates fresh inhabited
    obtain ⟨run', next, reached', known', rfl⟩ := ranks'.candidates fresh inhabited
    cases reached' with
    | next again _ bred =>
        obtain rfl := reached.unique again
        have evolved := reached.evolved fresh inhabited
        obtain ⟨others, best, ready, settled, bred⟩ := generation_breeds evolved inhabited bred
        obtain rfl := Except.ok.inj (settled.known.symm.trans known)
        have inside : rank < (Champion.ranked others).length := by
          rw [Champion.length_ranked, Search.length_candidates known, evolved.size]
          exact Nat.lt_of_lt_of_le elite config.elites_le
        obtain ⟨inside', notWorse⟩ := settled.rank_le bred known' (evolved.config ▸ elite) inside
        exact ⟨_, _, by simp [inside, Champion.individual], by simp [inside', Champion.individual], notWorse⟩
  · have improves := complete_improves fresh inhabited
      (create_records goal config (.listed words) outputDirectory verbose transcript) elites
    cases outcome with
    | ok value => exact improves.of_ok ended
    | error cause => exact improves.of_error ended

/-- A child of two beats the elite, which keeps its own error and comes second. -/
theorem elites_never_worsen_of_two :
    let config : Config :=
      { Config.lone 2 1 with populationSize := 2, elites := 1, parents_le := by decide, elites_le := by decide }
    let initial := create (GrayImage.black 1 1) config (.listed (List.replicate 24 5)) none false {}
    let seed : Champion := { program := Program.seed, error := 65025 }
    let child : Champion := { program := [Instr.const (-1)], error := 1 }
    (GrayImage.black 1 1).pixels ≠ 0 ∧
      (initial.Ranks 0 [seed.individual, seed.individual] ∧ initial.Ranks 1 [child.individual, seed.individual] ∧
        0 < config.elites ∧ child.error ≤ seed.error) ∧
      1 ≤ config.elites ∧ ∃ outcome final, complete initial = (outcome, final) ∧ final.Improves := by
  intro config initial seed child
  have inhabited : (GrayImage.black 1 1).pixels ≠ 0 := by decide
  obtain ⟨ranks_le, improves⟩ :=
    elites_never_worsen (GrayImage.black 1 1) config (List.replicate 24 5) none false {} inhabited
  obtain ⟨begun, started⟩ : ∃ begun, start initial = (.ok (), begun) := ⟨_, rfl⟩
  have reached : initial.Reaches 0 begun := .start started
  have fresh : initial.Fresh := create_fresh _ _ _ _ _ _
  have evolved := reached.evolved fresh inhabited
  have known : (start initial).2.search.candidates = .ok [seed, seed] := by decide +kernel
  have unread : (start initial).2.search.source = .listed (List.replicate 24 5) := rfl
  rw [started] at known unread
  have level : Champion.atMost seed seed = true := by decide +kernel
  have worse : Champion.atMost seed child = false := by decide +kernel
  have sorted : Champion.ranked [seed, seed] = [seed, seed] := by
    simp [Champion.ranked, List.mergeSort, List.MergeSort.Internal.splitInTwo, level]
  have sorted' : Champion.ranked [seed, child] = [child, seed] := by
    simp [Champion.ranked, List.mergeSort, List.MergeSort.Internal.splitInTwo, worse]
  have bred : (Search.offspring config ([seed, seed].map Champion.individual)
      (.listed (List.replicate 24 5))).1 = .ok [{ program := seed.program }, { program := child.program }] := by
    decide +kernel
  rcases offspring : Search.offspring config ([seed, seed].map Champion.individual)
    (.listed (List.replicate 24 5)) with ⟨_, rest⟩
  rw [offspring] at bred
  subst bred
  have fits : begun.Fits := by
    intro individual member
    refine (evolved.programs individual member).fits.mono ?_
    rw [Nat.zero_mul]
    decide
  have named : begun.outputDirectory ≠ some "" := by
    rw [evolved.outputDirectory]
    exact (Option.some_ne_none "").symm
  obtain ⟨run, ended, filled⟩ := generation_goes_on evolved inhabited fits named
    (congrArg Config.patience evolved.config) known (by rw [evolved.config, sorted, unread]; exact offspring)
  have reached' : initial.Reaches 1 run := .next reached (by decide) ended
  have evolved' := reached'.evolved fresh inhabited
  have known' : run.search.candidates = .ok [seed, child] := by
    rw [Search.candidates, filled, evolved'.goal, evolved'.config]
    decide +kernel
  have ranks : initial.Ranks 0 ((Champion.ranked [seed, seed]).map Champion.individual) :=
    .intro reached (by decide) (Search.evaluate_of_candidates known) (Search.rank_of_candidates rfl sorted)
  have ranks' : initial.Ranks 1 ((Champion.ranked [seed, child]).map Champion.individual) :=
    .intro reached' (by decide) (Search.evaluate_of_candidates known') (Search.rank_of_candidates rfl sorted')
  rw [sorted] at ranks
  rw [sorted'] at ranks'
  have elite : 0 < config.elites := Nat.one_pos
  obtain ⟨old, new, first, first', notWorse⟩ := ranks_le 0 _ _ ranks ranks' 0 elite
  obtain rfl : seed.error = old := Option.some.inj first
  obtain rfl : child.error = new := Option.some.inj first'
  exact ⟨inhabited, ⟨ranks, ranks', elite, notWorse⟩, elite, _, _, rfl, improves elite _ _ rfl⟩

end Run

end EvoRaster
