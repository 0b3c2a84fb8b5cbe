import EvoRaster.Proofs.Image.Finite
import EvoRaster.Proofs.Machine.Pixels
import EvoRaster.Proofs.Search.Reached

/-!
Contract: the best program of a run.

Owns:
- `Run.Logs`, the candidates of the generations that a run has completed, generation after generation;
- `Champion.improvements`, the best candidates of the generations that beat all generations before them;
- `Records`, by which champion, saved error, history and files all follow from the log, and `Records.settled`, by
  which a generation keeps this up;
- `champion_first_best`, which says what is known after a recorded generation.

Champion, saved error and history are kept apart from each other, and the population that they were taken from is
sorted, bred and mutated again. They agree because each generation compares its own first best with all of them.
-/

namespace EvoRaster

open Numeric

/-! ## The best of each generation -/

namespace Champion

variable {bests : List Champion} {best champion : Champion}

/-- What is known of a champion: there is none before the first generation, and then it is the first best. -/
inductive Leads : List Champion → Option Champion → Prop where
  | nobody : Leads [] none
  | somebody {bests : List Champion} {champion : Champion} (first : FirstBest bests champion) :
      Leads bests (some champion)

/-- The candidates that are better than all before them, with their positions. -/
def improvements (bests : List Champion) : List (Champion × Nat) :=
  bests.zipIdx.filter fun improvement =>
    (bests.take improvement.2).all fun earlier => improvement.1.error < earlier.error

theorem improvements_append (bests : List Champion) (best : Champion) :
    improvements (bests ++ [best]) =
      improvements bests ++
        if ∀ earlier ∈ bests, best.error < earlier.error then [(best, bests.length)] else [] := by
  have before : (bests.zipIdx.filter fun improvement =>
      ((bests ++ [best]).take improvement.2).all fun earlier => improvement.1.error < earlier.error) =
        improvements bests := by
    apply List.filter_congr
    rintro ⟨improvement, number⟩ member
    have inside : number < bests.length := (List.mem_zipIdx' member).1
    rw [List.take_append_of_le_length (Nat.le_of_lt inside)]
  have here : (List.zipIdx [best] bests.length).filter (fun improvement =>
      ((bests ++ [best]).take improvement.2).all fun earlier => improvement.1.error < earlier.error) =
        if ∀ earlier ∈ bests, best.error < earlier.error then [(best, bests.length)] else [] := by
    simp [List.filter_cons]
  rw [improvements, List.zipIdx_append, List.filter_append, before, Nat.zero_add, here]

/-- The first best of each group is a number if the errors of the groups are. -/
theorem numbers_of_leaders {groups : List (List Champion)} (leaders : List.Forall₂ FirstBest groups bests)
    (numbers : ∀ group ∈ groups, Numbers group) : Numbers bests := by
  induction leaders with
  | nil => simp [Numbers]
  | cons leads _ inductionHypothesis =>
      rw [List.forall_mem_cons] at numbers
      exact List.forall_mem_cons.mpr ⟨numbers.1 _ leads.mem, inductionHypothesis numbers.2⟩

section Leads

variable {search : Search}

/-- To beat the champion is to beat all bests. -/
theorem Leads.better_iff (leads : Leads bests search.champion) (numbers : Numbers bests)
    (finite : best.error < infiniteError) :
    best.error < search.bestError ↔ ∀ earlier ∈ bests, best.error < earlier.error := by
  rw [Search.bestError]
  generalize search.champion = held at leads ⊢
  cases leads with
  | nobody => simpa using finite
  | @somebody _ champion first =>
      refine ⟨fun better earlier member => ?_, fun better => better champion first.mem⟩
      exact Double.lt_of_lt_of_le better (first.le numbers earlier member)

/-- Noting the best of another generation leaves a champion that is the first best again. -/
theorem Leads.settled (leads : Leads bests search.champion) (numbers : Numbers bests)
    (finite : best.error < infiniteError) :
    Leads (bests ++ [best]) (if best.error < search.bestError then some best else search.champion) := by
  by_cases better : best.error < search.bestError
  · rw [if_pos better]
    exact .somebody (firstBest_append_better ((leads.better_iff numbers finite).mp better))
  · rw [if_neg better]
    rw [Search.bestError] at better
    generalize search.champion = held at leads better ⊢
    cases leads with
    | nobody => exact absurd finite better
    | @somebody _ champion first =>
        exact .somebody (first.append_worse (Double.le_of_not_lt (Double.isNumber_of_lt finite)
          (numbers champion first.mem) better))

end Leads

end Champion

/-- The error of a candidate is a finite number. -/
theorem Search.finite_of_candidates {search : Search} {candidates : List Champion}
    (known : search.candidates = .ok candidates) :
    ∀ candidate ∈ candidates, candidate.error < infiniteError := fun candidate member =>
  programError_lt_infinite (programError_of_candidates known candidate member)

theorem Search.numbers_of_candidates {search : Search} {candidates : List Champion}
    (known : search.candidates = .ok candidates) : Champion.Numbers candidates := fun candidate member =>
  Double.isNumber_of_lt (finite_of_candidates known candidate member)

namespace Run

/-! ## The log of a run -/

/-- The run has completed as many generations as there are groups in the log. Each group holds the programs that
its generation evaluated, with their errors, in the order of their slots. -/
inductive Logs (initial : Run) : List (List Champion) → Run → Prop where
  | start {run : Run} (started : Run.start initial = (.ok (), run)) : Logs initial [] run
  | next {log : List (List Champion)} {run after : Run} {candidates : List Champion}
      (logged : Logs initial log run) (more : log.length < initial.search.config.generations)
      (known : run.search.candidates = .ok candidates)
      (bred : generation log.length run = (.ok false, after)) : Logs initial (log ++ [candidates]) after

/-- The generation has been settled. Nothing but its population and the words has changed since. -/
def Completed (number : Nat) (before : Run) (candidates : List Champion) (best : Champion) (run : Run) : Prop :=
  ∃ ready population source, Settled number before candidates best ready ∧
    run = { ready with search := { ready.search with population, source } }

section Log

variable {initial run after : Run} {log : List (List Champion)} {bound number : Nat}

theorem Logs.reaches (logged : initial.Logs log run) : initial.Reaches log.length run := by
  induction logged with
  | start started => exact .start started
  | next _ more _ bred inductionHypothesis =>
      rw [List.length_append]
      exact .next inductionHypothesis more bred

/-- The best of a generation is the first of its best candidates. -/
theorem Settled.first {candidates : List Champion} {best : Champion}
    (settled : Settled number run candidates best after) : Champion.FirstBest candidates best := by
  obtain ⟨others, sorted⟩ := List.head?_eq_some_iff.mp settled.leads
  exact Champion.firstBest_of_ranked (Search.numbers_of_candidates settled.known) sorted

/-- A generation that does not fail has been settled, and one that fails has been settled or has no record. -/
theorem generation_completes (evolved : Evolved initial bound run)
    (inhabited : initial.search.goal.pixels ≠ 0) (number : Nat) :
    Ensures (generation number) run
      (fun _ after => ∃ candidates best, Completed number run candidates best after)
      (fun _ after => after.search.history = run.search.history ∨
        ∃ candidates best, Completed number run candidates best after) := by
  refine generation_rule evolved inhabited number (fun _ _ same => .inl same)
    (fun _ _ _ same => .inl same) ?_ ?_
  · intro _ _ candidates best after settled
    exact ⟨candidates, best, after, after.search.population, after.search.source, settled, rfl⟩
  · intro _ candidates best ready settled
    apply searchStep_ensures
    unfold Ensures
    rw [Search.evolve_run]
    rcases Search.offspring ready.search.config ready.search.population ready.search.source with
      ⟨_ | population, source⟩
    · exact .inr ⟨candidates, best, ready, ready.search.population, source, settled, rfl⟩
    · exact ⟨candidates, best, ready, population, source, settled, rfl⟩

theorem Advances.completed {candidates : List Champion} {best : Champion} {stops : Bool}
    (advances : Advances number run candidates best stops after) : Completed number run candidates best after := by
  cases advances with
  | stops settled => exact ⟨after, after.search.population, after.search.source, settled, rfl⟩
  | @goesOn ready population source settled => exact ⟨ready, population, source, settled, rfl⟩

theorem Completed.known {candidates : List Champion} {best : Champion}
    (completed : Completed number run candidates best after) : run.search.candidates = .ok candidates := by
  obtain ⟨ready, population, source, settled, rfl⟩ := completed
  exact settled.known

theorem Completed.best_mem {candidates : List Champion} {best : Champion}
    (completed : Completed number run candidates best after) : best ∈ candidates := by
  obtain ⟨ready, population, source, settled, rfl⟩ := completed
  exact settled.best_mem

/-- Every generation that a run reaches has a log. -/
theorem Reaches.logged (reached : initial.Reaches number run)
    (inhabited : initial.search.goal.pixels ≠ 0) : ∃ log, log.length = number ∧ initial.Logs log run := by
  induction reached with
  | start started => exact ⟨[], rfl, .start started⟩
  | next reached more bred inductionHypothesis =>
      obtain ⟨log, rfl, logged⟩ := inductionHypothesis
      have kept := reached.kept inhabited
      obtain ⟨candidates, best, advances⟩ := (generation_advances (kept.inhabited inhabited) _).of_ok bred
      exact ⟨log ++ [candidates], by rw [List.length_append, List.length_singleton],
        .next logged more advances.completed.known bred⟩

end Log

/-! ## What follows from the log -/

/-- The files are those of the generations that beat all generations before them, and no others. -/
def Filed (initial : Run) (bests : List Champion) (files : List (String × FileContent)) : Prop :=
  ∃ groups, files = initial.transcript.files.toList ++ groups.flatten ∧
    List.Forall₂ (fun improvement group =>
      Saves initial.search.goal improvement.2 improvement.1.program initial.outputDirectory group)
      (Champion.improvements bests) groups

theorem Filed.append {initial : Run} {bests : List Champion} {best : Champion}
    {files added : List (String × FileContent)} (filed : Filed initial bests files)
    (saved : if ∀ earlier ∈ bests, best.error < earlier.error then
      Saves initial.search.goal bests.length best.program initial.outputDirectory added else added = []) :
    Filed initial (bests ++ [best]) (files ++ added) := by
  obtain ⟨groups, written, each⟩ := filed
  rw [Filed, Champion.improvements_append]
  by_cases better : ∀ earlier ∈ bests, best.error < earlier.error
  · rw [if_pos better] at saved ⊢
    exact ⟨groups ++ [added], by simp [written], List.rel_append each (.cons saved .nil)⟩
  · rw [if_neg better] at saved ⊢
    exact ⟨groups, by rw [written, saved, List.append_nil], by rwa [List.append_nil]⟩

/-- Champion, saved error, history and files are those of the generations in the log, whose bests are given. -/
structure Records (initial : Run) (log : List (List Champion)) (bests : List Champion) (run : Run) :
    Prop where
  known : ∀ group ∈ log, ∀ candidate ∈ group,
    initial.search.goal.programError initial.search.config.model candidate.program = .ok candidate.error
  leaders : List.Forall₂ Champion.FirstBest log bests
  leads : Champion.Leads bests run.search.champion
  lastSaved : run.search.lastSavedError = run.search.bestError
  history : run.search.history.toList.map HistoryEntry.bestError = bests.map Champion.error
  files : Filed initial bests run.transcript.files.toList
  /-- The text that was written last is that of the champion. -/
  text : ∀ champion ∈ run.search.champion, ∀ directory ∈ initial.outputDirectory, ∃ number text,
    champion.program.text = .ok text ∧
      run.transcript.files.toList.getLast? = some (generationFile directory number "txt", .text text)

namespace Records

variable {initial run ready : Run} {log : List (List Champion)} {bests candidates : List Champion}
  {best : Champion}

theorem numbers (records : Records initial log bests run) : ∀ group ∈ log, Champion.Numbers group :=
  fun group inside candidate member =>
    Double.isNumber_of_lt (programError_lt_infinite (records.known group inside candidate member))

/-- A generation that beats what was saved beats all generations before it, and the other way round. -/
theorem saves_iff (records : Records initial log bests run) (finite : best.error < infiniteError) :
    best.error < run.search.lastSavedError ↔ ∀ earlier ∈ bests, best.error < earlier.error := by
  rw [records.lastSaved]
  exact records.leads.better_iff (Champion.numbers_of_leaders records.leaders records.numbers) finite

/-- A settled generation joins the log. -/
theorem settled (records : Records initial log bests run) (kept : Kept initial run)
    (settled : Settled log.length run candidates best ready) :
    Records initial (log ++ [candidates]) (bests ++ [best]) ready := by
  have known := Search.programError_of_candidates settled.known
  rw [kept.goal, kept.config] at known
  have finite := Search.finite_of_candidates settled.known
  have leader := settled.first
  have counted : bests.length = log.length := records.leaders.length_eq.symm
  have numbers := Champion.numbers_of_leaders records.leaders records.numbers
  have saves := records.saves_iff (finite best leader.mem)
  obtain ⟨added, appended, saved⟩ := settled.files
  rw [kept.goal, kept.outputDirectory] at saved
  have lastSaved : ready.search.lastSavedError = ready.search.bestError := by
    rw [settled.search, Search.bestError_settled, ← records.lastSaved]
    rfl
  refine ⟨?_, List.rel_append records.leaders (.cons leader .nil), ?_, lastSaved, ?_, ?_, ?_⟩
  · simpa [or_imp, forall_and] using ⟨records.known, known⟩
  · rw [settled.search]
    exact records.leads.settled numbers (finite best leader.mem)
  · rw [settled.search, List.map_append, ← records.history]
    simp [Search.settled]
  · rw [appended]
    apply records.files.append
    rwa [counted, ← if_congr saves rfl rfl]
  · intro champion held directory named
    rw [settled.search] at held
    by_cases better : best.error < run.search.lastSavedError
    · have crowned : champion = best := by
        simpa [Search.settled, ← records.lastSaved, better] using held.symm
      rw [if_pos better, named] at saved
      rw [appended, crowned]
      cases saved with
      | beside _ _ _ written => exact ⟨log.length, _, written, by simp⟩
    · have kept : champion ∈ run.search.champion := by
        simpa [Search.settled, ← records.lastSaved, better] using held
      rw [if_neg better] at saved
      rw [appended, saved, List.append_nil]
      exact records.text champion kept directory named

/-- Breeding and patience change nothing that is recorded. -/
theorem completed {after : Run} (records : Records initial log bests run) (kept : Kept initial run)
    (completed : Completed log.length run candidates best after) :
    Records initial (log ++ [candidates]) (bests ++ [best]) after := by
  obtain ⟨ready, population, source, settled, rfl⟩ := completed
  exact { records.settled kept settled with }

/-- The error of the champion is that of its program. -/
theorem champion_error (records : Records initial log bests run) :
    ∀ champion ∈ run.search.champion,
      initial.search.goal.programError initial.search.config.model champion.program = .ok champion.error := by
  intro champion held
  have leads := records.leads
  rw [Option.mem_def.mp held] at leads
  cases leads with
  | somebody first =>
      obtain ⟨group, inside, found⟩ :=
        List.mem_flatten.mp (first.flatten records.leaders records.numbers).mem
      exact records.known group inside champion found

theorem printed (records : Records initial log bests run) :
    ∀ champion ∈ run.search.champion, ∃ text, champion.program.text = .ok text := fun champion held =>
  (GrayImage.readsWithin_of_programError (records.champion_error champion held)).text_ok

theorem size_history (records : Records initial log bests run) : run.search.history.size = log.length := by
  rw [← Array.length_toList, ← List.length_map (f := HistoryEntry.bestError), records.history, List.length_map,
    records.leaders.length_eq]

end Records

section Recorded

variable {initial run : Run} {log : List (List Champion)}

theorem create_records (goal : GrayImage) (config : Config) (source : Source)
    (outputDirectory : Option String) (verbose : Bool) (transcript : Transcript) :
    Records (create goal config source outputDirectory verbose transcript) [] []
      (create goal config source outputDirectory verbose transcript) :=
  ⟨by simp, .nil, .nobody, rfl, rfl, ⟨[], by simp, .nil⟩, nofun⟩

theorem start_records (unrecorded : Records initial [] [] initial) :
    Ensures start initial (fun _ run => Records initial [] [] run) fun _ _ => False :=
  start_rule fun _ same =>
    { unrecorded with
      files := by rw [same]; exact unrecorded.files
      text := by rw [same]; exact unrecorded.text }

/-- What a run has recorded follows from its log. -/
theorem Logs.records (logged : initial.Logs log run) (inhabited : initial.search.goal.pixels ≠ 0)
    (unrecorded : Records initial [] [] initial) : ∃ bests, Records initial log bests run := by
  induction logged with
  | start started => exact ⟨[], (start_records unrecorded).of_ok started⟩
  | next logged more known bred inductionHypothesis =>
      obtain ⟨bests, records⟩ := inductionHypothesis
      have kept := logged.reaches.kept inhabited
      obtain ⟨candidates, best, advances⟩ := (generation_advances (kept.inhabited inhabited) _).of_ok bred
      obtain rfl := Except.ok.inj (advances.completed.known.symm.trans known)
      exact ⟨bests ++ [best], records.completed kept advances.completed⟩

end Recorded

/-! ## After a recorded generation -/

/-- What a run has recorded after the generations of a log, whose bests are given, and what is known of its
champion. -/
structure Crowned (initial : Run) (log : List (List Champion)) (bests : List Champion) (champion : Champion)
    (run : Run) : Prop extends Records initial log bests run where
  held : run.search.champion = some champion
  finite : champion.error < infiniteError
  /-- In the order of generations and slots the champion is the first of the best candidates. -/
  first : Champion.FirstBest log.flatten champion
  least : ∀ candidate ∈ log.flatten, champion.error ≤ candidate.error
  recorded : ∃ entry ∈ run.search.history, entry.bestError = champion.error
  leastRecorded : ∀ entry ∈ run.search.history, champion.error ≤ entry.bestError
  error : initial.search.goal.programError initial.search.config.model champion.program = .ok champion.error
  folded : ∃ folded, champion.program.fold = .ok folded ∧
    initial.search.goal.programError initial.search.config.model folded = .ok champion.error
  saved : run.search.lastSavedError = champion.error

section Crowned

variable {initial run : Run} {log : List (List Champion)} {bests : List Champion}

theorem Records.crowned (records : Records initial log bests run)
    (programs : ∀ champion ∈ run.search.champion, ∃ bound, champion.program.Evolved bound)
    (inhabited : initial.search.goal.pixels ≠ 0) (begun : bests ≠ []) :
    ∃ champion, Crowned initial log bests champion run := by
  obtain ⟨champion, held, first⟩ : ∃ champion, run.search.champion = some champion ∧
      Champion.FirstBest bests champion := by
    have leads := records.leads
    generalize run.search.champion = held at leads
    cases leads with
    | nobody => exact absurd rfl begun
    | somebody first => exact ⟨_, rfl, first⟩
  have numbers := Champion.numbers_of_leaders records.leaders records.numbers
  have all := first.flatten records.leaders records.numbers
  have allNumbers : Champion.Numbers log.flatten := by
    intro candidate member
    obtain ⟨group, inside, found⟩ := List.mem_flatten.mp member
    exact records.numbers group inside candidate found
  have error := records.champion_error champion held
  obtain ⟨depth, program⟩ := programs champion held
  have fits : champion.program.Fits 0 1 Stack.evaluationCapacity := by
    by_contra tall
    cases error.symm.trans ((program.programError initial.search.config.model inhabited).2 tall)
  have folded := initial.search.goal.programError_of_folded initial.search.config.model fits
    program.readsWithin fun instr member => (program.words instr member).not_drop
  rw [error] at folded
  refine ⟨champion, records, held, programError_lt_infinite error, all, all.le allNumbers, ?_, ?_, error,
    folded, ?_⟩
  · have among : champion.error ∈ run.search.history.toList.map HistoryEntry.bestError := by
      rw [records.history]
      exact List.mem_map_of_mem first.mem
    obtain ⟨entry, member, same⟩ := List.mem_map.mp among
    exact ⟨entry, Array.mem_toList_iff.mp member, same⟩
  · intro entry member
    have among : entry.bestError ∈ bests.map Champion.error := by
      rw [← records.history]
      exact List.mem_map_of_mem (Array.mem_toList_iff.mpr member)
    obtain ⟨best, found, same⟩ := List.mem_map.mp among
    rw [← same]
    exact first.le numbers best found
  · rw [records.lastSaved, Search.bestError, held]

/-- After every recorded generation of a run the champion is the first of the best of all programs that were
evaluated so far, in the order of generations and slots. Its error is the least in the history, it is the error of
the champion's program and of that program folded, and it is the error that was saved last. A generation is saved
exactly if its best error is below that of every earlier generation, so the program that was saved last is that of
the champion. -/
theorem champion_first_best (goal : GrayImage) (config : Config) (words : List UInt32)
    (outputDirectory : Option String) (verbose : Bool) (transcript : Transcript)
    (inhabited : goal.pixels ≠ 0) {log : List (List Champion)} {run after : Run}
    {outcome : Except SearchError Bool}
    (logged : (create goal config (.listed words) outputDirectory verbose transcript).Logs log run)
    (ended : generation log.length run = (outcome, after))
    (recorded : after.search.history.size = log.length + 1) :
    ∃ candidates bests best champion, run.search.candidates = .ok candidates ∧
      List.Forall₂ Champion.FirstBest log bests ∧ Champion.FirstBest candidates best ∧
      (best.error < run.search.lastSavedError ↔ ∀ earlier ∈ bests, best.error < earlier.error) ∧
      Crowned (create goal config (.listed words) outputDirectory verbose transcript)
        (log ++ [candidates]) (bests ++ [best]) champion after := by
  have fresh := create_fresh goal config words outputDirectory verbose transcript
  have unrecorded := create_records goal config (.listed words) outputDirectory verbose transcript
  obtain ⟨bests, records⟩ := logged.records inhabited unrecorded
  have evolved := logged.reaches.evolved fresh inhabited
  have completes := generation_completes evolved inhabited log.length
  obtain ⟨candidates, best, completed⟩ : ∃ candidates best, Completed log.length run candidates best after := by
    cases outcome with
    | ok stops => exact completes.of_ok ended
    | error cause =>
        obtain same | completed := completes.of_error ended
        · rw [same, records.size_history] at recorded
          omega
        · exact completed
  have records' := records.completed evolved.kept completed
  obtain ⟨ready, population, source, settled, rfl⟩ := id completed
  have programs := (settled.evolved evolved).champion
  obtain ⟨champion, crowned⟩ := records'.crowned programs inhabited (by simp)
  have finite := Search.finite_of_candidates settled.known best settled.best_mem
  refine ⟨candidates, bests, best, champion, settled.known, records.leaders, settled.first, ?_, crowned⟩
  exact records.saves_iff finite

theorem champion_first_best_of_two :
    let initial := create (GrayImage.black 1 1) (.lone 2 1) (.listed (List.replicate 12 5)) (some "best") false {}
    (GrayImage.black 1 1).pixels ≠ 0 ∧ ∃ run outcome after,
      initial.Logs [[{ program := Program.seed, error := 65025 }]] run ∧
      generation 1 run = (outcome, after) ∧ after.search.history.size = 2 ∧
      ∃ log bests champion, Crowned initial log bests champion after ∧ champion.error = 1 := by
  intro initial
  have inhabited : (GrayImage.black 1 1).pixels ≠ 0 := by decide
  obtain ⟨begun, started⟩ : ∃ begun, start initial = (.ok (), begun) := ⟨_, rfl⟩
  have known : (start initial).2.search.candidates = .ok [{ program := Program.seed, error := 65025 }] := by
    decide +kernel
  have bred : (generation 0 (start initial).2).1 = .ok false := by decide +kernel
  have recorded : (generation 1 (generation 0 (start initial).2).2).2.search.history.size = 2 := by
    decide +kernel
  have held : (generation 1 (generation 0 (start initial).2).2).2.search.champion.map Champion.error =
      some 1 := by decide +kernel
  rw [started] at known bred recorded held
  rcases first : generation 0 begun with ⟨_, run⟩
  rw [first] at bred recorded held
  subst bred
  rcases second : generation 1 run with ⟨outcome, after⟩
  rw [second] at recorded held
  have logged : initial.Logs [[{ program := Program.seed, error := 65025 }]] run :=
    .next (.start started) (by decide) known first
  obtain ⟨candidates, bests, best, champion, -, -, -, -, crowned⟩ :=
    champion_first_best (GrayImage.black 1 1) (.lone 2 1) _ _ _ _ inhabited logged second recorded
  refine ⟨inhabited, run, outcome, after, logged, second, recorded, _, _, champion, crowned, ?_⟩
  rw [crowned.held] at held
  exact Option.some.inj held

end Crowned

end Run

end EvoRaster
