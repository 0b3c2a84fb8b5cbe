import EvoRaster.Proofs.Image.Halves
import EvoRaster.Proofs.Search.Steps
import EvoRaster.Search.Run

/-!
Contract: one generation of a run.

Owns:
- `Run.Evolved`, what holds of a run at the start of a generation;
- `Settled`, what a generation has done once it is evaluated, ranked, saved and recorded;
- a rule for every step that only reports, by which the search goes on as it was;
- `generation_cases`, by which any generation is settled or fails, and `Advances`, what becomes of one that does not
  fail;
- `generation_rule`, the same for evolved programs, and `GenerationFails`, the ways in which their generations can
  fail;
- `start_ensures`, `generation_ensures` and `conclude_ensures`.
-/

namespace EvoRaster

/-- The search after a generation in which these candidates were evaluated and `best` was ranked first. -/
def Search.settled (search : Search) (number : Nat) (candidates : List Champion) (best : Champion) :
    Search :=
  { search with
    generation := number
    population := (Champion.ranked candidates).map Champion.individual
    champion := if best.error < search.bestError then some best else search.champion
    lastSavedError := if best.error < search.lastSavedError then best.error else search.lastSavedError
    history := search.history.push
      { generation := number
        bestError := best.error
        errorPerPixel := best.error / Float.ofNat search.goal.pixels
        codeSize := best.program.length } }

theorem Search.bestError_settled (search : Search) (number : Nat) (candidates : List Champion)
    (best : Champion) :
    (search.settled number candidates best).bestError =
      if best.error < search.bestError then best.error else search.bestError := by
  by_cases better : best.error < search.bestError
  · rw [if_pos better, bestError, settled, if_pos better]
  · rw [if_neg better, bestError, settled, if_neg better, bestError]

private theorem Search.bestError_settled_lt_iff (search : Search) (number : Nat) (candidates : List Champion)
    (best : Champion) :
    (search.settled number candidates best).bestError < search.bestError ↔ best.error < search.bestError := by
  rw [bestError_settled]
  by_cases better : best.error < search.bestError
  · rw [if_pos better]
  · rw [if_neg better]
    exact ⟨fun less => absurd less (Numeric.Double.lt_irrefl _), fun less => absurd less better⟩

namespace Run

/-- The run has the settings that it began with, a full population of evolved programs, and a list of words to
draw from. -/
structure Evolved (initial : Run) (bound : Nat) (run : Run) : Prop where
  goal : run.search.goal = initial.search.goal
  config : run.search.config = initial.search.config
  outputDirectory : run.outputDirectory = initial.outputDirectory
  size : run.search.population.length = initial.search.config.populationSize
  programs : ∀ individual ∈ run.search.population, individual.program.Evolved bound
  champion : ∀ champion ∈ run.search.champion, ∃ bound, champion.program.Evolved bound
  listed : ∃ words, run.search.source = .listed words

/-- The run has the settings that it began with. -/
structure Kept (initial run : Run) : Prop where
  goal : run.search.goal = initial.search.goal
  config : run.search.config = initial.search.config
  outputDirectory : run.outputDirectory = initial.outputDirectory

/-- Every program of the population fits on the stack. -/
def Fits (run : Run) : Prop :=
  ∀ individual ∈ run.search.population, individual.program.Fits 0 1 Stack.evaluationCapacity

/-- The files in which a program is saved: its picture beside the goal, and its text. -/
inductive Saves (goal : GrayImage) (number : Nat) (program : Program) :
    Option String → List (String × FileContent) → Prop where
  | nowhere : Saves goal number program none []
  | beside {directory : String} {generated picture : GrayImage} {text : String} (named : directory ≠ "")
      (rendered : goal.renderAlike program = .ok generated) (joined : goal.beside generated = .ok picture)
      (written : program.text = .ok text) :
      Saves goal number program (some directory)
        [(generationFile directory number "png", .picture picture),
          (generationFile directory number "txt", .text text)]

/-- The run has evaluated, ranked, saved and recorded the generation that it began in the state `before`. -/
structure Settled (number : Nat) (before : Run) (candidates : List Champion) (best : Champion) (run : Run) :
    Prop where
  known : before.search.candidates = .ok candidates
  leads : (Champion.ranked candidates).head? = some best
  search : run.search = before.search.settled number candidates best
  outputDirectory : run.outputDirectory = before.outputDirectory
  files : ∃ files, run.transcript.files.toList = before.transcript.files.toList ++ files ∧
    if best.error < before.search.lastSavedError then
      Saves before.search.goal number best.program before.outputDirectory files
    else files = []

/-- The generations without improvement, after another one with this best candidate. -/
def staleAfter (run : Run) (best : Champion) : Nat :=
  if best.error < run.search.bestError then 0 else run.stale + 1

/-- There is a limit to patience, and it has been reached. -/
def OutOfPatience (run : Run) : Prop := ∃ limit ∈ run.search.config.patience, limit ≤ run.stale

/-- What a generation that does not fail makes of a run, and whether the run stops then. -/
inductive Advances (number : Nat) (before : Run) (candidates : List Champion) (best : Champion) :
    Bool → Run → Prop where
  | stops {ready : Run} (settled : Settled number before candidates best ready)
      (stale : ready.stale = before.staleAfter best) (spent : ready.OutOfPatience) :
      Advances number before candidates best true ready
  | goesOn {ready : Run} {population : Population} {source : Source}
      (settled : Settled number before candidates best ready) (stale : ready.stale = before.staleAfter best)
      (patient : ¬ready.OutOfPatience)
      (bred : Search.offspring ready.search.config ready.search.population ready.search.source =
        (.ok population, source)) :
      Advances number before candidates best false
        { ready with search := { ready.search with population, source } }

/-- Why and how a generation fails that began with `run`. -/
inductive GenerationFails (run : Run) : SearchError → Run → Prop where
  | exhausted {final : Run} (fits : run.Fits) (empty : final.search.source = .listed []) :
      GenerationFails run (.variation (.draw .outOfWords)) final
  | unnamed {final : Run} (fits : run.Fits) (directory : run.outputDirectory = some "") :
      GenerationFails run .emptyName final
  | overflow {final : Run} (tall : ¬run.Fits) :
      GenerationFails run (.fitness (.render (.fault .overflow))) final

/-! ## Steps that report -/

section Reports

variable {run : Run} {failed : SearchError → Run → Prop} {done : PUnit → Run → Prop}

theorem searchStep_ensures {α : Type} {step : SearchStep α} {done : α → Run → Prop}
    (ensured : Ensures step run.search (fun value search => done value { run with search })
      fun cause search => failed cause { run with search }) :
    Ensures (searchStep step) run done failed := by
  have taken : searchStep step run =
      ((step run.search).1, { run with search := (step run.search).2 }) := rfl
  unfold Ensures at ensured ⊢
  rw [taken]
  split at ensured
  · rename_i value search ended
    rw [ended]
    exact ensured
  · rename_i cause search ended
    rw [ended]
    exact ensured

theorem searchStep_of_ok {α : Type} {step : SearchStep α} {value : α} {search : Search}
    {done : α → Run → Prop} (ended : step run.search = (.ok value, search))
    (holds : done value { run with search }) : Ensures (searchStep step) run done failed := by
  apply searchStep_ensures
  unfold Ensures
  rw [ended]
  exact holds

theorem announce_ensures (notice : Notice)
    (holds : ∀ transcript, transcript.files = run.transcript.files → done ⟨⟩ { run with transcript }) :
    Ensures (announce notice) run done failed := by
  apply Ensures.of_modify
  split
  · exact holds _ rfl
  · exact holds run.transcript rfl

/-- A program with an error can be saved, unless the directory has no name. -/
private theorem writeBest_ensures (number : Nat) {program : Program} {model : ErrorModel} {error : Float}
    (known : run.search.goal.programError model program = .ok error)
    (holds : ∀ transcript files, transcript.files.toList = run.transcript.files.toList ++ files →
      Saves run.search.goal number program run.outputDirectory files → done ⟨⟩ { run with transcript })
    (unnamed : run.outputDirectory = some "" → failed .emptyName run) :
    Ensures (writeBest number program) run done failed := by
  unfold writeBest
  apply Ensures.of_get_bind
  cases named : run.outputDirectory with
  | none =>
      have saved : Saves run.search.goal number program run.outputDirectory [] := by
        rw [named]
        exact .nowhere
      exact Ensures.of_pure (holds run.transcript [] (by simp) saved)
  | some directory =>
      by_cases empty : directory.isEmpty
      · have blank : directory = "" := String.isEmpty_iff.mp empty
        subst blank
        exact Ensures.of_throw (unnamed named)
      · obtain ⟨generated, rendered, same⟩ := GrayImage.renderAlike_of_programError known
        obtain ⟨picture, joined⟩ := GrayImage.beside_ok same
        obtain ⟨text, written⟩ := (GrayImage.readsWithin_of_programError known).text_ok
        simp only [empty]
        refine Ensures.bind (Ensures.of_outcome (by rw [rendered]; rfl) ?_)
        refine Ensures.bind (Ensures.of_outcome (by rw [joined]; rfl) ?_)
        refine Ensures.bind (Ensures.of_modify ?_)
        refine Ensures.bind (Ensures.of_outcome (by rw [written]; rfl) ?_)
        refine Ensures.of_modify (holds _ _ (by simp [Transcript.addFile]; rfl) ?_)
        rw [named]
        exact .beside (fun blank => empty (String.isEmpty_iff.mpr blank)) rendered joined written

private theorem saveBest_ensures (number : Nat) {program : Program} {model : ErrorModel} {error : Float}
    (known : run.search.goal.programError model program = .ok error)
    (holds : ∀ transcript files, transcript.files.toList = run.transcript.files.toList ++ files →
      (if error < run.search.lastSavedError then
        Saves run.search.goal number program run.outputDirectory files else files = []) →
      done ⟨⟩ { run with
        transcript
        search := { run.search with
          lastSavedError := if error < run.search.lastSavedError then error
            else run.search.lastSavedError } })
    (unnamed : error < run.search.lastSavedError → run.outputDirectory = some "" → failed .emptyName run) :
    Ensures (saveBest number program error) run done failed := by
  unfold saveBest
  apply Ensures.of_get_bind
  by_cases better : error < run.search.lastSavedError
  · simp only [if_pos better] at holds ⊢
    refine Ensures.bind (writeBest_ensures number known (fun transcript files added saved => ?_) (unnamed better))
    exact Ensures.of_modify (holds transcript files added saved)
  · simp only [if_neg better] at holds ⊢
    exact Ensures.of_pure (holds run.transcript [] (by simp) rfl)

theorem perPixel_eq {search : Search} (inhabited : search.goal.pixels ≠ 0) (error : Float) :
    search.perPixel error = .ok (error / Float.ofNat search.goal.pixels) := if_neg inhabited

private theorem record_ensures (number : Nat) (program : Program) (error : Float)
    (inhabited : run.search.goal.pixels ≠ 0)
    (holds : ∀ transcript, transcript.files = run.transcript.files →
      done ⟨⟩ { run with
        transcript
        search := { run.search with
          history := run.search.history.push
            { generation := number
              bestError := error
              errorPerPixel := error / Float.ofNat run.search.goal.pixels
              codeSize := program.length } } }) :
    Ensures (record number program error) run done failed := by
  unfold record
  refine Ensures.of_get_bind (Ensures.bind (Ensures.of_outcome (perPixel_eq inhabited error) ?_))
  refine Ensures.bind (Ensures.of_modify ?_)
  apply Ensures.of_get_bind
  exact announce_ensures _ holds

private theorem losesPatience_ensures (previousBest : Float) {done : Bool → Run → Prop}
    (holds : ∀ stops ready,
      (∃ transcript, transcript.files = run.transcript.files ∧ ready =
        { run with
          stale := if run.search.bestError < previousBest then 0 else run.stale + 1
          transcript }) →
      (stops = true ↔ ready.OutOfPatience) → done stops ready) :
    Ensures (losesPatience previousBest) run done failed := by
  unfold losesPatience
  refine Ensures.bind (Ensures.of_modify (Ensures.of_get_bind ?_))
  generalize (if run.search.bestError < previousBest then 0 else run.stale + 1) = stale at holds ⊢
  split
  · rename_i unlimited
    refine Ensures.of_pure (holds false _ ⟨run.transcript, rfl, rfl⟩ ?_)
    have unlimited' : run.search.config.patience = none := unlimited
    simp [OutOfPatience, unlimited']
  · rename_i limit limited
    have spent (transcript : Transcript) :
        ({ run with stale, transcript } : Run).OutOfPatience ↔ limit ≤ stale := by
      have limited' : run.search.config.patience = some limit := limited
      simp [OutOfPatience, limited']
    split
    · rename_i reached
      refine Ensures.bind (announce_ensures _ fun transcript same => ?_)
      exact Ensures.of_pure (holds true _ ⟨transcript, same, rfl⟩ (by simpa [spent] using reached))
    · rename_i below
      exact Ensures.of_pure (holds false _ ⟨run.transcript, rfl, rfl⟩ (by simpa [spent] using below))

end Reports

/-! ## From one generation to the next -/

section Generation

variable {initial run : Run} {bound number : Nat}

/-- A run starts with seeds alone. -/
theorem start_rule {done : Unit → Run → Prop} {failed : SearchError → Run → Prop}
    (holds : ∀ transcript, transcript.files = initial.transcript.files → done ()
      { initial with
        search := { initial.search with population := Population.seeds initial.search.config.populationSize }
        stale := 0
        transcript }) : Ensures start initial done failed := by
  unfold start
  refine Ensures.of_get_bind (Ensures.bind (announce_ensures _ fun _ same => ?_))
  refine Ensures.bind (announce_ensures _ fun _ same' => ?_)
  exact Ensures.bind (searchStep_ensures (Ensures.of_modify (Ensures.of_modify (holds _ (same'.trans same)))))

theorem start_ensures {words : List UInt32} (unused : initial.search.champion = none)
    (listed : initial.search.source = .listed words) :
    Ensures start initial (fun _ run => Evolved initial 1 run) fun _ _ => False := by
  refine start_rule fun _ _ => ⟨rfl, rfl, rfl, List.length_replicate, ?_, ?_, words, listed⟩
  · intro individual member
    rw [List.eq_of_mem_replicate member]
    exact Program.seed_evolved
  · intro champion known
    rw [unused] at known
    cases known

theorem Evolved.kept (evolved : Evolved initial bound run) : Kept initial run :=
  ⟨evolved.goal, evolved.config, evolved.outputDirectory⟩

theorem Kept.trans {after : Run} (first : Kept initial run) (second : Kept run after) : Kept initial after :=
  ⟨second.goal.trans first.goal, second.config.trans first.config,
    second.outputDirectory.trans first.outputDirectory⟩

theorem Kept.inhabited (kept : Kept initial run) (inhabited : initial.search.goal.pixels ≠ 0) :
    run.search.goal.pixels ≠ 0 := by
  rw [kept.goal]
  exact inhabited

theorem Evolved.mono (evolved : Evolved initial bound run) {larger : Nat} (bounds : bound ≤ larger) :
    Evolved initial larger run :=
  { evolved with programs := fun individual member => (evolved.programs individual member).mono bounds }

theorem Evolved.populated (evolved : Evolved initial bound run) : run.search.population ≠ [] := by
  have size := evolved.size
  have least := initial.search.config.one_le_parents
  have most := initial.search.config.parents_le
  exact List.ne_nil_of_length_pos (by omega)

/-- The errors of a generation are known exactly if its programs fit. -/
theorem Evolved.errors (evolved : Evolved initial bound run)
    (inhabited : initial.search.goal.pixels ≠ 0) :
    (run.Fits → ∃ errors, run.search.errors = .ok errors) ∧
      (¬run.Fits → run.search.errors = .error (.render (.fault .overflow))) := by
  rw [← evolved.goal] at inhabited
  exact ⟨Search.errors_of_fits evolved.programs inhabited,
    Search.errors_of_tall evolved.programs inhabited⟩

section Settled

variable {candidates : List Champion} {best : Champion} {ready : Run}

theorem Settled.kept (settled : Settled number run candidates best ready) : Kept run ready where
  goal := by rw [settled.search]; rfl
  config := by rw [settled.search]; rfl
  outputDirectory := settled.outputDirectory

theorem Advances.kept {stops : Bool} {after : Run} (advances : Advances number run candidates best stops after) :
    Kept run after := by
  cases advances with
  | stops settled => exact settled.kept
  | goesOn settled => exact ⟨settled.kept.goal, settled.kept.config, settled.kept.outputDirectory⟩

theorem Settled.best_mem (settled : Settled number run candidates best ready) : best ∈ candidates :=
  (Champion.ranked_perm candidates).mem_iff.mp (List.mem_of_mem_head? settled.leads)

theorem Settled.program_evolved (settled : Settled number run candidates best ready)
    (before : Evolved initial bound run) : ∀ candidate ∈ candidates, candidate.program.Evolved bound := by
  intro candidate member
  have found := List.mem_map_of_mem (f := Champion.program) member
  rw [Search.programs_of_candidates settled.known] at found
  obtain ⟨original, inside, same⟩ := List.mem_map.mp found
  exact same ▸ before.programs original inside

/-- Settling a generation keeps the invariant. -/
theorem Settled.evolved (settled : Settled number run candidates best ready)
    (before : Evolved initial bound run) : Evolved initial bound ready := by
  have programs := settled.program_evolved before
  refine ⟨?_, ?_, settled.outputDirectory.trans before.outputDirectory, ?_, ?_, ?_, ?_⟩
  · rw [settled.search]
    exact before.goal
  · rw [settled.search]
    exact before.config
  · rw [settled.search, ← before.size, ← Search.length_candidates settled.known, ← Champion.length_ranked]
    exact List.length_map _
  · intro individual member
    rw [settled.search] at member
    obtain ⟨candidate, inside, rfl⟩ := List.mem_map.mp member
    exact programs candidate ((Champion.ranked_perm candidates).mem_iff.mp inside)
  · intro champion held
    rw [settled.search] at held
    by_cases better : best.error < run.search.bestError
    · have crowned : champion = best := by simpa [Search.settled, better] using held.symm
      exact ⟨bound, crowned ▸ programs best settled.best_mem⟩
    · exact before.champion champion (by simpa [Search.settled, better] using held)
  · rw [settled.search]
    exact before.listed

end Settled

/-- A generation evaluates, ranks, saves and records its programs, if all of them have errors. What it ensures then
is what stopping or breeding ensures. -/
theorem generation_cases (inhabited : run.search.goal.pixels ≠ 0) (number : Nat) {done : Bool → Run → Prop}
    {failed : SearchError → Run → Prop}
    (unknown : ∀ cause after, run.search.errors = .error cause → after.search.history = run.search.history →
      failed (.fitness cause) after)
    (empty : ∀ after, run.search.population = [] → after.search.history = run.search.history →
      failed (.population .noIndividual) after)
    (unnamed : ∀ candidates best after, run.search.candidates = .ok candidates →
      (Champion.ranked candidates).head? = some best → best.error < run.search.lastSavedError →
      run.outputDirectory = some "" → after.search.history = run.search.history → failed .emptyName after)
    (stopped : ∀ candidates best after, Settled number run candidates best after →
      after.stale = run.staleAfter best → after.OutOfPatience → done true after)
    (bred : ∀ candidates best ready, Settled number run candidates best ready →
      ready.stale = run.staleAfter best → ¬ready.OutOfPatience →
      Ensures (searchStep Search.evolve) ready (fun _ after => done false after) failed) :
    Ensures (generation number) run done failed := by
  unfold generation
  refine Ensures.bind (Ensures.of_modify (Ensures.of_get_bind ?_))
  cases evaluated : run.search.errors with
  | error cause =>
      have failing : ({ run.search with generation := number } : Search).errors = _ := evaluated
      refine Ensures.bind (searchStep_ensures ?_)
      unfold Ensures
      rw [Search.evaluate_run, failing]
      exact unknown cause _ evaluated rfl
  | ok errors =>
  obtain ⟨candidates, known⟩ := Search.exists_candidates evaluated
  refine Ensures.bind (searchStep_of_ok (Search.evaluate_of_candidates known) ?_)
  by_cases populated : run.search.population = []
  case pos =>
    have nobody : candidates = [] := by
      rw [← List.length_eq_zero_iff, Search.length_candidates known, populated, List.length_nil]
    subst nobody
    exact Ensures.bind (searchStep_ensures (Search.rank_of_nil rfl (empty _ populated rfl)))
  obtain ⟨best, others, sorted⟩ := Search.exists_best known populated
  refine Ensures.bind (searchStep_of_ok (Search.rank_of_candidates rfl sorted) ?_)
  have first : (Population.best ((Champion.ranked candidates).map Champion.individual)).mapError
      SearchError.population = .ok best.individual := by
    rw [sorted, List.map_cons, Population.best_cons]
    rfl
  refine Ensures.of_get_bind (Ensures.bind (Ensures.of_outcome first ?_))
  refine Ensures.bind (Ensures.of_outcome rfl ?_)
  have leads : (Champion.ranked candidates).head? = some best := by rw [sorted, List.head?_cons]
  have member : best ∈ candidates := (Champion.ranked_perm candidates).mem_iff.mp (List.mem_of_mem_head? leads)
  have error := Search.programError_of_candidates known best member
  refine Ensures.bind (saveBest_ensures number error (fun saving files added saved => ?_)
    fun better directory => unnamed candidates best _ known leads better directory rfl)
  refine Ensures.bind (record_ensures number best.program best.error inhabited fun recording kept => ?_)
  refine Ensures.bind (losesPatience_ensures _ fun stops ready given spent => ?_)
  obtain ⟨transcript, kept', rfl⟩ := given
  have stale : (if (run.search.settled number candidates best).bestError < run.search.bestError then 0
      else run.stale + 1) = run.staleAfter best :=
    if_congr (run.search.bestError_settled_lt_iff number candidates best) rfl rfl
  have settled (search : Search) (unchanged : search = run.search.settled number candidates best) (stale : Nat) :
      Settled number run candidates best { run with stale, transcript, search } :=
    { known
      leads
      search := unchanged
      outputDirectory := rfl
      files := ⟨files, by rw [kept', kept, added], saved⟩ }
  cases stops with
  | true => exact Ensures.of_pure (stopped _ _ _ (settled _ rfl _) stale (spent.mp rfl))
  | false =>
      have patient := fun out => Bool.false_ne_true (spent.mpr out)
      exact (bred _ _ _ (settled _ rfl _) stale patient).bind_of fun _ after holds => Ensures.of_pure holds

/-- A generation that does not fail has been settled. It stops the run or has been bred from. -/
theorem generation_advances (inhabited : run.search.goal.pixels ≠ 0) (number : Nat) :
    Ensures (generation number) run
      (fun stops after => ∃ candidates best, Advances number run candidates best stops after) fun _ _ => True := by
  refine generation_cases inhabited number (fun _ _ _ _ => trivial) (fun _ _ _ => trivial)
    (fun _ _ _ _ _ _ _ _ => trivial) ?_ ?_
  · intro candidates best after settled stale spent
    exact ⟨candidates, best, .stops settled stale spent⟩
  · intro candidates best ready settled stale patient
    refine searchStep_ensures (Ensures.intro (fun _ after bred => ?_) fun _ _ _ => trivial)
    obtain ⟨population, source, offspring, rfl⟩ := Search.offspring_of_evolve bred
    exact ⟨candidates, best, .goesOn settled stale patient offspring⟩

/-- A generation of evolved programs is settled if all of them fit, and overflows otherwise. -/
theorem generation_rule (evolved : Evolved initial bound run) (inhabited : initial.search.goal.pixels ≠ 0)
    (number : Nat) {done : Bool → Run → Prop} {failed : SearchError → Run → Prop}
    (overflow : ¬run.Fits → ∀ after, after.search.history = run.search.history →
      failed (.fitness (.render (.fault .overflow))) after)
    (unnamed : run.Fits → run.outputDirectory = some "" → ∀ after,
      after.search.history = run.search.history → failed .emptyName after)
    (stopped : run.Fits → run.search.config.patience ≠ none →
      ∀ candidates best after, Settled number run candidates best after → done true after)
    (bred : run.Fits → ∀ candidates best ready, Settled number run candidates best ready →
      Ensures (searchStep Search.evolve) ready (fun _ after => done false after) failed) :
    Ensures (generation number) run done failed := by
  have errors := evolved.errors inhabited
  have fits {candidates : List Champion} (known : run.search.candidates = .ok candidates) : run.Fits := by
    by_contra tall
    have overflows := errors.2 tall
    rw [Search.errors_eq, known] at overflows
    cases overflows
  refine generation_cases (evolved.kept.inhabited inhabited) number ?_
    (fun _ empty => absurd empty evolved.populated)
    (fun _ _ after known _ _ directory => unnamed (fits known) directory after) ?_
    fun candidates best ready settled _ _ => bred (fits settled.known) candidates best ready settled
  · intro cause after failing same
    have tall : ¬run.Fits := by
      intro fits
      obtain ⟨errors, evaluated⟩ := errors.1 fits
      cases failing.symm.trans evaluated
    obtain rfl : _ = cause := Except.error.inj ((errors.2 tall).symm.trans failing)
    exact overflow tall after same
  · intro candidates best after settled _ spent
    refine stopped (fits settled.known) ?_ candidates best after settled
    obtain ⟨limit, limited, -⟩ := spent
    rw [settled.search] at limited
    exact fun unlimited => Option.some_ne_none limit (limited.symm.trans unlimited)

theorem Evolved.breeds {ready : Run} (evolved : Evolved initial bound ready) :
    Ensures (searchStep Search.evolve) ready
      (fun _ after => Evolved initial (bound + initial.search.config.mutationsPerChild) after)
      (fun cause after => cause = .variation (.draw .outOfWords) ∧
        after.search.source = .listed []) := by
  rcases evolved.listed with ⟨words, listed⟩
  have sized : ready.search.population.length = ready.search.config.populationSize := by
    rw [evolved.config]
    exact evolved.size
  refine searchStep_ensures ((Search.evolve_ensures listed sized evolved.programs).mono ?_
    fun _ _ failed => failed)
  intro _ _ ended
  rcases ended with ⟨population, rest, rfl, counted, programs⟩
  rw [evolved.config] at counted programs
  exact { evolved with size := counted, programs := programs, listed := ⟨rest, rfl⟩ }

/-- A generation whose programs fit on the stack breeds evolved programs. It fails if a program does not fit,
if the words run out or if files are to be written under an empty name. -/
theorem generation_ensures (evolved : Evolved initial bound run)
    (inhabited : initial.search.goal.pixels ≠ 0) (number : Nat) :
    Ensures (generation number) run
      (fun _ after => run.Fits ∧
        Evolved initial (bound + initial.search.config.mutationsPerChild) after)
      (GenerationFails run) := by
  refine generation_rule evolved inhabited number (fun tall _ _ => .overflow tall)
    (fun fits directory _ _ => .unnamed fits directory) ?_ ?_
  · intro fits _ candidates best after settled
    exact ⟨fits, (settled.evolved evolved).mono (Nat.le_add_right _ _)⟩
  · intro fits candidates best ready settled
    refine (settled.evolved evolved).breeds.mono (fun _ _ bred => ⟨fits, bred⟩) ?_
    intro _ after ended
    rcases ended with ⟨rfl, empty⟩
    exact .exhausted fits empty

/-- A generation whose programs fit goes on to the next one if that can be bred. -/
theorem generation_goes_on (evolved : Evolved initial bound run)
    (inhabited : initial.search.goal.pixels ≠ 0) (fits : run.Fits) (named : run.outputDirectory ≠ some "")
    (patient : run.search.config.patience = none) {candidates : List Champion}
    (known : run.search.candidates = .ok candidates) {population : Population} {source : Source}
    (bred : Search.offspring run.search.config ((Champion.ranked candidates).map Champion.individual)
      run.search.source = (.ok population, source)) :
    ∃ after, generation number run = (.ok false, after) ∧ after.search.population = population := by
  have ensured : Ensures (generation number) run
      (fun stops after => stops = false ∧ after.search.population = population) fun _ _ => False := by
    refine generation_rule evolved inhabited number (fun tall => absurd fits tall)
      (fun _ unnamed => absurd unnamed named) (fun _ impatient => absurd patient impatient) ?_
    intro _ others best ready settled
    obtain rfl := Except.ok.inj (settled.known.symm.trans known)
    have evolves : Search.evolve ready.search = (.ok (), { ready.search with population, source }) := by
      rw [Search.evolve_run, settled.search]
      simp only [Search.settled, bred]
    exact searchStep_of_ok evolves ⟨rfl, rfl⟩
  rcases ended : generation number run with ⟨_ | stops, after⟩
  · exact (ensured.of_error ended).elim
  · obtain ⟨rfl, filled⟩ := ensured.of_ok ended
    exact ⟨after, rfl, filled⟩

/-- The best program so far can be announced if it has a text, which leaves the search as it is. -/
theorem conclude_of_text (inhabited : run.search.goal.pixels ≠ 0)
    (printed : ∀ champion ∈ run.search.champion, ∃ text, champion.program.text = .ok text) :
    Ensures conclude run (fun _ after => after.search = run.search) fun _ _ => False := by
  unfold conclude
  apply Ensures.of_get_bind
  cases best : run.search.champion with
  | none => exact Ensures.of_pure rfl
  | some champion =>
      obtain ⟨text, written⟩ := printed champion best
      by_cases verbose : run.verbose
      · simp only [verbose, if_true]
        refine Ensures.bind (Ensures.of_outcome (perPixel_eq inhabited champion.error) ?_)
        refine Ensures.bind (announce_ensures _ fun _ _ => ?_)
        refine Ensures.bind (Ensures.of_outcome (by rw [written]; rfl) ?_)
        exact announce_ensures _ fun _ _ => rfl
      · simp only [verbose]
        exact Ensures.of_pure rfl

theorem conclude_ensures (evolved : Evolved initial bound run)
    (inhabited : initial.search.goal.pixels ≠ 0) :
    Ensures conclude run (fun _ after => after.search = run.search) fun _ _ => False := by
  refine conclude_of_text (evolved.kept.inhabited inhabited) fun champion best => ?_
  obtain ⟨_, program⟩ := evolved.champion champion best
  exact program.text_ok

end Generation

end Run

end EvoRaster
