import EvoRaster.Proofs.Search.Breeding
import EvoRaster.Proofs.Search.Patience
import EvoRaster.Proofs.Variation.Deepening

/-!
Contract: a run and the same run with fewer generations or with patience.

Owns:
- `Config.shortened`, the settings of a search with another end;
- `Run.Alongside`, two runs that have searched alike so far, and `Advances.alongside`, by which they go on to do so
  whatever each of them counts, prints and writes;
- `Unstopped`, a run that completes all its generations, whose history only grows;
- `Shortens.step` and `Shortens.reaches`, by which the shorter run stays beside the longer one, counts as its history
  says and does not fail;
- `shortened_run_keeps_prefix`: if the longer run completes, the shorter one does so with the records that the
  longer one had after as many generations.

Words may come from a list or from a generator. Neither run is assumed to fit on the stack: what the longer run has
evaluated without a failure, the shorter one can evaluate, save and print.
-/

namespace EvoRaster

/-- The same settings, but for the generations and patience that end a search. -/
def Config.shortened (config : Config) (generations : Nat) (patience : Option Nat)
    (bounded : ∀ limit ∈ patience, 1 ≤ limit) : Config :=
  { config with generations, patience, one_le_patience := bounded }

namespace Search

variable {config : Config} {generations : Nat} {patience : Option Nat} {bounded : ∀ limit ∈ patience, 1 ≤ limit}

/-- The end of a search does not matter to what is bred. -/
theorem offspring_shortened (ranked : Population) :
    offspring (config.shortened generations patience bounded) ranked = offspring config ranked := by
  apply offspring_congr
  · rfl
  · intro slot
    rfl
  · rfl

end Search

namespace Run

/-! ## One generation of both runs -/

section Generation

variable {generations : Nat} {patience : Option Nat} {bounded : ∀ limit ∈ patience, 1 ≤ limit}
  {run run' after after' : Run} {number : Nat} {candidates : List Champion} {best : Champion} {stops : Bool}

/-- The second search is the first one with another end. -/
structure Alongside (generations : Nat) (patience : Option Nat) (bounded : ∀ limit ∈ patience, 1 ≤ limit)
    (run run' : Run) : Prop where
  search : run'.search = { run.search with config := run.search.config.shortened generations patience bounded }

theorem Alongside.candidates_eq (alongside : Alongside generations patience bounded run run') :
    run'.search.candidates = run.search.candidates := by
  rw [alongside.search]
  rfl

theorem Alongside.settled_eq (alongside : Alongside generations patience bounded run run') :
    run'.search.settled number candidates best =
      { run.search.settled number candidates best with
        config := run.search.config.shortened generations patience bounded } := by
  rw [alongside.search]
  rfl

/-- Where the first run goes on to another generation, the second one does not fail. -/
theorem Advances.possible (advances : Advances number run candidates best false after)
    (alongside : Alongside generations patience bounded run run') (inhabited : run'.search.goal.pixels ≠ 0)
    (named : run'.outputDirectory = some "" → run.outputDirectory = some "") :
    Ensures (generation number) run' (fun stops after' => Advances number run' candidates best stops after')
      fun _ _ => False := by
  have same := alongside.candidates_eq
  cases advances with
  | @goesOn ready population source settled _ _ bred =>
  have unique {others : List Champion} {first : Champion} {ready' : Run}
      (settled' : Settled number run' others first ready') : others = candidates ∧ first = best := by
    obtain rfl := Except.ok.inj (settled'.known.symm.trans (same.trans settled.known))
    exact ⟨rfl, Option.some.inj (settled'.leads.symm.trans settled.leads)⟩
  refine generation_cases inhabited number ?_ ?_ ?_ ?_ ?_
  · intro cause _ failing _
    rw [Search.errors_eq, same, settled.known] at failing
    cases failing
  · intro _ empty _
    have populated := List.length_pos_of_mem settled.best_mem
    rw [Search.length_candidates (same.trans settled.known), empty] at populated
    exact Nat.lt_irrefl 0 populated
  · -- The first run has saved this program under the same name.
    intro others first _ known leads better unnamed _
    obtain rfl := Except.ok.inj (known.symm.trans (same.trans settled.known))
    obtain rfl := Option.some.inj (leads.symm.trans settled.leads)
    obtain ⟨files, -, saved⟩ := settled.files
    rw [alongside.search] at better
    rw [if_pos better, named unnamed] at saved
    cases saved with
    | beside directory => exact directory rfl
  · intro others first ready' settled' stale spent
    obtain ⟨rfl, rfl⟩ := unique settled'
    exact .stops settled' stale spent
  · intro others first ready' settled' stale patient
    obtain ⟨rfl, rfl⟩ := unique settled'
    have bred' : Search.offspring ready'.search.config ready'.search.population ready'.search.source =
        (.ok population, source) := by
      rw [settled'.search, alongside.settled_eq, Search.offspring_shortened]
      rw [settled.search] at bred
      exact bred
    have evolves : Search.evolve ready'.search = (.ok (), { ready'.search with population, source }) := by
      rw [Search.evolve_run, bred']
    exact searchStep_of_ok evolves (.goesOn settled' stale patient bred')

/-- After a generation of both runs their records are the same, and if both go on, so is all else. -/
theorem Advances.alongside (advances : Advances number run candidates best false after)
    (advances' : Advances number run' candidates best stops after')
    (alongside : Alongside generations patience bounded run run') :
    after'.search.history = after.search.history ∧ after'.search.champion = after.search.champion ∧
      (stops = false → Alongside generations patience bounded after after') := by
  refine ⟨?_, ?_, fun goesOn => ?_⟩
  · rw [advances'.history, advances.history, alongside.settled_eq]
  · rw [advances'.champion, advances.champion, alongside.settled_eq]
  · subst goesOn
    cases advances with
    | @goesOn ready population source settled _ _ bred =>
    cases advances' with
    | @goesOn ready' population' source' settled' _ _ bred' =>
    rw [settled'.search, alongside.settled_eq, Search.offspring_shortened] at bred'
    rw [settled.search] at bred
    obtain ⟨rfl, rfl⟩ : population = population' ∧ source = source' := by
      have offspring := bred.symm.trans bred'
      rw [Prod.mk.injEq, Except.ok.injEq] at offspring
      exact offspring
    constructor
    rw [settled'.search, alongside.settled_eq, settled.search]
    rfl

end Generation

private theorem search_of_start {initial run : Run} (started : start initial = (.ok (), run)) :
    run.search = { initial.search with population := Population.seeds initial.search.config.populationSize } ∧
      run.stale = 0 := by
  have begun : Ensures start initial (fun _ run => run.search =
      { initial.search with population := Population.seeds initial.search.config.populationSize } ∧ run.stale = 0)
      fun _ _ => False := start_rule fun _ _ => ⟨rfl, rfl⟩
  exact begun.of_ok started

/-! ## The longer run -/

/-- A run without patience that completes all its generations. -/
structure Unstopped (initial final : Run) : Prop where
  inhabited : initial.search.goal.pixels ≠ 0
  unlimited : initial.search.config.patience = none
  unrecorded : Records initial [] [] initial
  completes : complete initial = (.ok (), final)

/-- The best errors of all generations. -/
def errors (run : Run) : List Float := run.search.history.toList.map HistoryEntry.bestError

namespace Unstopped

variable {initial run final : Run} {number : Nat}

theorem records (unstopped : Unstopped initial final) (reached : initial.Reaches number run) :
    ∃ log bests, log.length = number ∧ initial.Logs log run ∧ Records initial log bests run := by
  obtain ⟨log, counted, logged⟩ := reached.logged unstopped.inhabited
  obtain ⟨bests, records⟩ := logged.records unstopped.inhabited unstopped.unrecorded
  exact ⟨log, bests, counted, logged, records⟩

/-- A run that completes goes on after every generation but the last. -/
theorem goes_on (unstopped : Unstopped initial final) (reached : initial.Reaches number run)
    (more : number < initial.search.config.generations) :
    ∃ candidates best after, initial.Reaches (number + 1) after ∧
      Advances number run candidates best false after := by
  have kept := reached.kept unstopped.inhabited
  have advances := generation_advances (kept.inhabited unstopped.inhabited) number
  have rest := reached.complete_eq unstopped.inhabited (Nat.le_of_lt more)
  rw [unstopped.completes, show initial.search.config.generations - number =
    (initial.search.config.generations - (number + 1)) + 1 by omega] at rest
  rcases ended : generation number run with ⟨cause | stops, after⟩
  · have failed : (generations (initial.search.config.generations - (number + 1) + 1) number >>= fun _ =>
        conclude) run = (.error cause, after) := bind_of_error (bind_of_error ended)
    cases rest.trans failed
  · obtain ⟨candidates, best, advances⟩ := advances.of_ok ended
    cases stops with
    | true =>
        obtain ⟨limit, limited, -⟩ := advances.stops_iff.mp rfl
        rw [advances.kept.config, kept.config, unstopped.unlimited] at limited
        cases limited
    | false => exact ⟨candidates, best, after, .next reached more ended, advances⟩

private theorem exists_reaches (unstopped : Unstopped initial final)
    (within : number ≤ initial.search.config.generations) : ∃ run, initial.Reaches number run := by
  induction number with
  | zero =>
      have begun : Ensures start initial (fun _ _ => True) fun _ _ => False := start_rule fun _ _ => trivial
      rcases started : start initial with ⟨cause | _, run⟩
      · exact (begun.of_error started).elim
      · exact ⟨run, .start started⟩
  | succ number inductionHypothesis =>
      obtain ⟨run, reached⟩ := inductionHypothesis (Nat.le_of_lt within)
      obtain ⟨-, -, after, reached', -⟩ := unstopped.goes_on reached within
      exact ⟨after, reached'⟩

/-- What a run has searched in the end, it had searched when its last generation was over. -/
private theorem search_eq (unstopped : Unstopped initial final)
    (reached : initial.Reaches initial.search.config.generations run) : final.search = run.search := by
  obtain ⟨log, bests, -, -, records⟩ := unstopped.records reached
  have rest := reached.complete_eq unstopped.inhabited (Nat.le_refl _)
  rw [unstopped.completes, Nat.sub_self] at rest
  have kept := reached.kept unstopped.inhabited
  exact (conclude_of_text (kept.inhabited unstopped.inhabited) records.printed).of_ok rest.symm

/-- The history of a run only grows. -/
theorem history_isPrefix (unstopped : Unstopped initial final) (reached : initial.Reaches number run)
    (within : number ≤ initial.search.config.generations) :
    run.search.history.toList <+: final.search.history.toList := by
  obtain ⟨remaining, count⟩ := Nat.exists_eq_add_of_le within
  induction remaining generalizing number run with
  | zero =>
      rw [Nat.add_zero] at count
      rw [unstopped.search_eq (count ▸ reached)]
  | succ remaining inductionHypothesis =>
      obtain ⟨candidates, best, after, reached', advances⟩ := unstopped.goes_on reached (by omega)
      refine List.IsPrefix.trans ?_ (inductionHypothesis reached' (by omega) (by omega))
      rw [advances.history]
      exact ⟨_, (Array.toList_push ..).symm⟩

theorem history_eq_take (unstopped : Unstopped initial final) (reached : initial.Reaches number run)
    (within : number ≤ initial.search.config.generations) :
    run.search.history.toList = final.search.history.toList.take number := by
  obtain ⟨log, bests, rfl, -, records⟩ := unstopped.records reached
  rw [← records.size_history, ← Array.length_toList]
  exact List.prefix_iff_eq_take.mp (unstopped.history_isPrefix reached within)

end Unstopped

/-! ## The shorter run beside the longer one -/

section Shorter

variable {generations : Nat} {patience : Option Nat} {bounded : ∀ limit ∈ patience, 1 ≤ limit}
  {initial initial' final run run' : Run} {number : Nat}

/-- A run that completes, and one that starts alike with another end. The second may have another directory, but
one with a name. -/
structure Shortens (generations : Nat) (patience : Option Nat) (bounded : ∀ limit ∈ patience, 1 ≤ limit)
    (initial final initial' : Run) : Prop extends Unstopped initial final where
  alongside : Alongside generations patience bounded initial initial'
  fewer : generations ≤ initial.search.config.generations
  named : initial'.outputDirectory = some "" → initial.outputDirectory = some ""

theorem Shortens.inhabited' (shortens : Shortens generations patience bounded initial final initial') :
    initial'.search.goal.pixels ≠ 0 := by
  rw [shortens.alongside.search]
  exact shortens.inhabited

theorem Shortens.config (shortens : Shortens generations patience bounded initial final initial') :
    initial'.search.config = initial.search.config.shortened generations patience bounded := by
  rw [shortens.alongside.search]

/-- The shorter run has recorded what the longer one has, and stops exactly if the history of the longer one shows
that patience is spent. -/
structure InStep (generations : Nat) (patience : Option Nat) (bounded : ∀ limit ∈ patience, 1 ≤ limit)
    (errors : List Float) (number : Nat) (after after' : Run) (stops : Bool) : Prop where
  history : after'.search.history = after.search.history
  champion : after'.search.champion = after.search.champion
  counts : Patience.Counts errors number after'.stale
  stops_iff : stops = true ↔ ∃ limit ∈ patience, Patience.spent errors limit number
  goesOn : stops = false → Alongside generations patience bounded after after'

/-- One generation of both runs. -/
theorem Shortens.step (shortens : Shortens generations patience bounded initial final initial')
    (reached : initial.Reaches number run) (reached' : initial'.Reaches number run')
    (more : number < initial.search.config.generations)
    (alongside : Alongside generations patience bounded run run')
    (counts : Patience.Counts final.errors number run'.stale) :
    ∃ after, initial.Reaches (number + 1) after ∧
      Ensures (generation number) run'
        (fun stops after' => Kept run' after' ∧
          InStep generations patience bounded final.errors (number + 1) after after' stops)
        fun _ _ => False := by
  have kept := reached.kept shortens.inhabited
  have kept' := reached'.kept shortens.inhabited'
  obtain ⟨log, bests, counted, -, records⟩ := shortens.records reached
  obtain ⟨candidates, best, after, next, advances⟩ := shortens.goes_on reached more
  have named (unnamed : run'.outputDirectory = some "") : run.outputDirectory = some "" := by
    rw [kept.outputDirectory]
    exact shortens.named (kept'.outputDirectory ▸ unnamed)
  refine ⟨after, next, (advances.possible alongside (kept'.inhabited shortens.inhabited') named).mono
    (fun stops after' advances' => ?_) fun _ _ never => never⟩
  obtain ⟨history, champion, goesOn⟩ := advances.alongside advances' alongside
  -- The champion is beaten where the history improves, so both counts go on alike.
  have improves : best.error < run'.search.bestError ↔ Patience.improvesAt final.errors number := by
    obtain ⟨later, whole⟩ := shortens.history_isPrefix next more
    have recorded : after.search.history.toList.map HistoryEntry.bestError ++
        later.map HistoryEntry.bestError = final.errors := by
      rw [← List.map_append, whole, errors]
    rw [← counted, ← advances.better_iff records recorded, alongside.search]
    rfl
  have counts' : Patience.Counts final.errors (number + 1) after'.stale := by
    rw [advances'.stale, staleAfter, if_congr improves rfl rfl]
    exact counts.next
  have limits : after'.search.config.patience = patience := by
    rw [advances'.kept.config, kept'.config, shortens.config]
    rfl
  refine ⟨advances'.kept, history, champion, counts', ?_, goesOn⟩
  rw [advances'.stops_iff, OutOfPatience, limits]
  simp only [counts'.spent_iff]

/-- As long as the shorter run goes on, the longer one is beside it and patience is not spent. -/
theorem Shortens.reaches (shortens : Shortens generations patience bounded initial final initial')
    (reached' : initial'.Reaches number run') :
    ∃ run, initial.Reaches number run ∧ Alongside generations patience bounded run run' ∧
      Patience.Counts final.errors number run'.stale ∧
      ∀ limit ∈ patience, ∀ earlier ≤ number, ¬Patience.spent final.errors limit earlier := by
  induction reached' with
  | @start run' started =>
      obtain ⟨run, reached⟩ := shortens.exists_reaches (Nat.zero_le _)
      refine ⟨run, reached, ?_, ?_, fun limit limited earlier none => ?_⟩
      · cases reached with
        | start begun =>
            constructor
            rw [(search_of_start started).1, (search_of_start begun).1, shortens.alongside.search]
            rfl
      · rw [(search_of_start started).2]
        exact Patience.counts_zero
      · intro out
        have least := bounded limit limited
        have enough := (Patience.spent_iff.mp out).1
        omega
  | @next number run' after' reached' more bred inductionHypothesis =>
      obtain ⟨run, reached, alongside, counts, patient⟩ := inductionHypothesis
      rw [shortens.config] at more
      have more' : number < initial.search.config.generations := Nat.lt_of_lt_of_le more shortens.fewer
      obtain ⟨after, next, ensured⟩ := shortens.step reached reached' more' alongside counts
      obtain ⟨-, inStep⟩ := ensured.of_ok bred
      refine ⟨after, next, inStep.goesOn rfl, inStep.counts, fun limit limited earlier within => ?_⟩
      obtain rfl | before : earlier = number + 1 ∨ earlier ≤ number := by omega
      · exact fun out => Bool.false_ne_true (inStep.stops_iff.mpr ⟨limit, limited, out⟩)
      · exact patient limit limited earlier before

/-- The run has the records that the longer run had after as many generations. -/
structure RecordsAlike (generations : Nat) (patience : Option Nat) (initial final run' : Run) (count : Nat)
    (run : Run) : Prop where
  reached : initial.Reaches count run
  stops : Patience.Stops final.errors generations patience count
  history : run'.search.history = run.search.history
  champion : run'.search.champion = run.search.champion

/-- The shorter run completes, with the records of the longer one. -/
theorem Shortens.complete (shortens : Shortens generations patience bounded initial final initial') :
    Ensures complete initial'
      (fun _ final' => ∃ count run, RecordsAlike generations patience initial final final' count run)
      fun _ _ => False := by
  have last (run' : Run) (reached' : initial'.Reaches initial'.search.config.generations run') :
      run'.search.goal.pixels ≠ 0 ∧ ∃ count run, RecordsAlike generations patience initial final run' count run := by
    have kept' := reached'.kept shortens.inhabited'
    rw [shortens.config] at reached'
    obtain ⟨run, reached, alongside, counts, patient⟩ := shortens.reaches reached'
    refine ⟨kept'.inhabited shortens.inhabited', _, run, reached, ⟨Nat.le_refl _, .inl rfl, ?_⟩, ?_, ?_⟩
    · exact fun limit limited earlier before => patient limit limited earlier (Nat.le_of_lt before)
    · rw [alongside.search]
    · rw [alongside.search]
  refine complete_rule last ?_ ?_
  · intro number run' reached' more
    rw [shortens.config] at more
    have kept' := reached'.kept shortens.inhabited'
    have more' : number < initial.search.config.generations := Nat.lt_of_lt_of_le more shortens.fewer
    obtain ⟨run, reached, alongside, counts, patient⟩ := shortens.reaches reached'
    obtain ⟨after, next, ensured⟩ := shortens.step reached reached' more' alongside counts
    refine ensured.mono (fun stops after' given stopped => ?_) fun _ _ never => never
    obtain ⟨kept, inStep⟩ := given
    refine ⟨(kept'.trans kept).inhabited shortens.inhabited', _, after, next, ⟨more, ?_, ?_⟩, inStep.history,
      inStep.champion⟩
    · exact .inr (inStep.stops_iff.mp stopped)
    · exact fun limit limited earlier before => patient limit limited earlier (Nat.le_of_lt_succ before)
  · intro run' given
    obtain ⟨inhabited, count, run, alike⟩ := given
    obtain ⟨log, bests, -, -, records⟩ := shortens.records alike.reached
    refine (conclude_of_text inhabited ?_).mono (fun _ final' same => ⟨count, run, ?_⟩) fun _ _ never => never
    · rw [alike.champion]
      exact records.printed
    · exact { alike with
        history := by rw [same, alike.history]
        champion := by rw [same, alike.champion] }

end Shorter

/-- If a run without patience completes, so does every run that starts alike but ends after fewer generations or has
patience, whatever either of them prints and writes. Its history is a prefix of the longer history: all its
generations, or the first number of them after which patience is spent, which is larger than the limit of patience.
Its champion is the one that the longer run had after as many generations, the first of their bests that has the
least error. -/
theorem shortened_run_keeps_prefix (goal : GrayImage) (config : Config) (source : Source)
    (inhabited : goal.pixels ≠ 0) (unlimited : config.patience = none) {generations : Nat}
    (fewer : generations ≤ config.generations) {patience : Option Nat} (bounded : ∀ limit ∈ patience, 1 ≤ limit)
    {directory directory' : Option String} (named : directory' = some "" → directory = some "")
    (verbose verbose' : Bool) (transcript transcript' : Transcript) {final : Run}
    (completes : complete (create goal config source directory verbose transcript) = (.ok (), final)) :
    ∃ count final',
      complete (create goal (config.shortened generations patience bounded) source directory' verbose' transcript') =
        (.ok (), final') ∧
      Patience.Stops final.errors generations patience count ∧
      (∀ limit ∈ patience, Patience.spent final.errors limit count → limit < count) ∧
      final'.search.history.size = count ∧
      final'.search.history.toList = final.search.history.toList.take count ∧
      ∃ run log bests, (create goal config source directory verbose transcript).Logs log run ∧ log.length = count ∧
        List.Forall₂ Champion.FirstBest log bests ∧ final'.errors = bests.map Champion.error ∧
        Champion.Leads bests final'.search.champion ∧ final'.search.champion = run.search.champion := by
  have shortens : Shortens generations patience bounded
      (create goal config source directory verbose transcript) final
      (create goal (config.shortened generations patience bounded) source directory' verbose' transcript') :=
    { inhabited, unlimited, completes, fewer, named
      unrecorded := create_records goal config source directory verbose transcript
      alongside := ⟨rfl⟩ }
  have ensured := shortens.complete
  rcases ended : complete (create goal (config.shortened generations patience bounded) source directory' verbose'
    transcript') with ⟨cause | _, final'⟩
  · exact (ensured.of_error ended).elim
  obtain ⟨count, run, alike⟩ := ensured.of_ok ended
  obtain ⟨log, bests, counted, logged, records⟩ := shortens.records alike.reached
  have size : final'.search.history.size = count := by rw [alike.history, records.size_history, counted]
  have taken : final'.search.history.toList = final.search.history.toList.take count := by
    rw [alike.history]
    exact shortens.history_eq_take alike.reached (Nat.le_trans alike.stops.le fewer)
  have recorded : count ≤ final.errors.length := by
    rw [errors, List.length_map]
    have within := congrArg List.length taken
    rw [Array.length_toList, size, List.length_take] at within
    omega
  refine ⟨count, final', rfl, alike.stops, fun limit limited => Patience.spent_lt recorded (bounded limit limited),
    size, taken, run, log, bests, logged, counted, records.leaders, ?_, ?_, alike.champion⟩
  · rw [errors, alike.history, records.history]
  · rw [alike.champion]
    exact records.leads

/-- A run that breeds deeper and deeper sums. The third of them has the darkest sample and the fourth is no improvement,
so that a patience of one is spent after four of five generations. -/
theorem shortened_run_keeps_prefix_of_bred :
    let words := (List.range' 0 5).flatMap Program.deepeningWords
    (GrayImage.black 1 1).pixels ≠ 0 ∧ (Config.lone 5 1).patience = none ∧
      ∃ final, complete (create (GrayImage.black 1 1) (.lone 5 1) (.listed words) none false {}) = (.ok (), final) ∧
        ∃ final', complete (create (GrayImage.black 1 1) ((Config.lone 5 1).shortened 5 (some 1) (by simp))
            (.listed words) none true {}) = (.ok (), final') ∧
          final'.errors = [65025, 16384, 1, 1] ∧
          final'.search.history.toList = final.search.history.toList.take 4 := by
  intro words
  let initial := create (GrayImage.black 1 1) (.lone 5 1) (.listed words) none false {}
  have inhabited : (GrayImage.black 1 1).pixels ≠ 0 := by decide
  have succeeds : (complete initial).1 = .ok () := by decide +kernel
  have errors : (complete initial).2.errors = [65025, 16384, 1, 1, 1] := by decide +kernel
  rcases completes : complete initial with ⟨_, final⟩
  rw [completes] at succeeds errors
  subst succeeds
  obtain ⟨count, final', completes', stops, -, -, taken, -⟩ :=
    shortened_run_keeps_prefix (GrayImage.black 1 1) (.lone 5 1) (.listed words) inhabited rfl (Nat.le_refl 5)
      (show ∀ limit ∈ some 1, 1 ≤ limit by simp) (show (none : Option String) = some "" → _ from nofun) false true
      {} {} completes
  rw [errors] at stops
  have fourth : count = 4 := by
    have out : Patience.spent [65025, 16384, 1, 1, 1] 1 4 = true := by decide +kernel
    have before : ∀ number < 4, Patience.spent [65025, 16384, 1, 1, 1] 1 number = false := by decide +kernel
    have atMost : count ≤ 4 := Nat.le_of_not_lt fun later => stops.first 1 rfl 4 later out
    obtain whole | ⟨limit, limited, spent⟩ := stops.ends
    · omega
    · obtain rfl : 1 = limit := Option.some.inj limited
      by_contra other
      rw [before count (by omega)] at spent
      cases spent
  subst fourth
  refine ⟨inhabited, rfl, final, rfl, final', completes', ?_, taken⟩
  rw [Run.errors] at errors ⊢
  rw [taken, List.map_take, errors]
  rfl

end Run

end EvoRaster
