import EvoRaster.Proofs.Search.Generation

/-!
Contract: the generations that a run reaches.

Owns:
- `Run.Reaches`, the start of each generation of a run;
- `Reaches.kept` and `Reaches.evolved`, the invariants that every reached generation has;
- `Reaches.complete_eq`, by which a run goes on from any generation that it reaches;
- `complete_rule`, by which a run guarantees what its generations do;
- `RunFails` and `complete_ensures`, the ways in which a run can fail.

Patience, elites, the error model and the order of the draws decide which generations are reached. None of
them matters for what is said here.
-/

namespace EvoRaster

namespace Run

/-- The run starts the generation of this number in this state. -/
inductive Reaches (initial : Run) : Nat → Run → Prop where
  | start {run : Run} (started : Run.start initial = (.ok (), run)) : Reaches initial 0 run
  | next {number : Nat} {run after : Run} (reached : Reaches initial number run)
      (more : number < initial.search.config.generations)
      (bred : generation number run = (.ok false, after)) : Reaches initial (number + 1) after

/-- The run has found nothing yet and draws from a list of words. -/
structure Fresh (initial : Run) : Prop where
  unused : initial.search.champion = none
  listed : ∃ words, initial.search.source = .listed words

theorem create_fresh (goal : GrayImage) (config : Config) (words : List UInt32)
    (outputDirectory : Option String) (verbose : Bool) (transcript : Transcript) :
    (create goal config (.listed words) outputDirectory verbose transcript).Fresh where
  unused := rfl
  listed := ⟨words, rfl⟩

/-- Why and how a run fails. -/
inductive RunFails (initial : Run) : SearchError → Run → Prop where
  | exhausted {final : Run} (empty : final.search.source = .listed []) :
      RunFails initial (.variation (.draw .outOfWords)) final
  | unnamed {final : Run} (directory : initial.outputDirectory = some "") :
      RunFails initial .emptyName final
  | overflow {number : Nat} {run final : Run} (reached : initial.Reaches number run)
      (more : number < initial.search.config.generations) (tall : ¬run.Fits)
      (failed : run.search.errors = .error (.render (.fault .overflow)))
      (deep : Stack.evaluationCapacity ≤ number * initial.search.config.mutationsPerChild) :
      RunFails initial (.fitness (.render (.fault .overflow))) final

section Reached

variable {initial run : Run} {number : Nat}

/-! ## The invariant -/

/-- A run keeps its settings, wherever its words come from. -/
theorem Reaches.kept (reached : initial.Reaches number run) (inhabited : initial.search.goal.pixels ≠ 0) :
    Kept initial run := by
  induction reached with
  | start started =>
      have begun : Ensures Run.start initial (fun _ run => Kept initial run) fun _ _ => False :=
        start_rule fun _ _ => ⟨rfl, rfl, rfl⟩
      exact begun.of_ok started
  | next reached more bred inductionHypothesis =>
      obtain ⟨candidates, best, advances⟩ :=
        (generation_advances (inductionHypothesis.inhabited inhabited) _).of_ok bred
      exact inductionHypothesis.trans advances.kept

/-- At the start of generation `number` every program has been mutated at most `number` times as often as a
child is. -/
theorem Reaches.evolved (reached : initial.Reaches number run) (fresh : initial.Fresh)
    (inhabited : initial.search.goal.pixels ≠ 0) :
    Evolved initial (1 + number * initial.search.config.mutationsPerChild) run := by
  induction reached with
  | start started =>
      rcases fresh.listed with ⟨words, listed⟩
      rw [Nat.zero_mul]
      exact (start_ensures fresh.unused listed).of_ok started
  | next reached more bred inductionHypothesis =>
      rw [Nat.succ_mul, ← Nat.add_assoc]
      exact ((generation_ensures inductionHypothesis inhabited _).of_ok bred).2

/-- Programs that do not fit have been mutated often enough. -/
theorem Evolved.deep (evolved : Evolved initial (1 + number) run) (tall : ¬run.Fits) :
    Stack.evaluationCapacity ≤ number := by
  by_cases low : 1 + number ≤ Stack.evaluationCapacity
  · exact absurd (fun individual member => (evolved.programs individual member).fits.mono low) tall
  · omega

/-! ## The rest of a run -/

/-- What holds of a run that stops, and of one that has reached its last generation, holds in the end. -/
theorem generations_rule {done : Run → Prop} {failed : SearchError → Run → Prop} (remaining : Nat)
    (reached : initial.Reaches number run) (count : number + remaining = initial.search.config.generations)
    (last : ∀ run, initial.Reaches initial.search.config.generations run → done run)
    (each : ∀ number run, initial.Reaches number run → number < initial.search.config.generations →
      Ensures (generation number) run (fun stops after => stops = true → done after) failed) :
    Ensures (generations remaining number) run (fun _ after => done after) failed := by
  induction remaining generalizing number run with
  | zero =>
      rw [Nat.add_zero] at count
      exact Ensures.of_pure (last run (count ▸ reached))
  | succ remaining inductionHypothesis =>
      have more : number < initial.search.config.generations := by omega
      have one := each number run reached more
      unfold generations
      refine Ensures.bind (Ensures.intro (fun stops after ended => ?_) fun _ _ ended => one.of_error ended)
      cases stops with
      | true => exact Ensures.of_pure (one.of_ok ended rfl)
      | false => exact inductionHypothesis (.next reached more ended) (by omega)

theorem complete_rule {done done' : Run → Prop} {failed : SearchError → Run → Prop}
    (last : ∀ run, initial.Reaches initial.search.config.generations run → done run)
    (each : ∀ number run, initial.Reaches number run → number < initial.search.config.generations →
      Ensures (generation number) run (fun stops after => stops = true → done after) failed)
    (concludes : ∀ run, done run → Ensures conclude run (fun _ after => done' after) failed) :
    Ensures complete initial (fun _ after => done' after) failed := by
  have first : Ensures start initial (fun _ run => run.search.config = initial.search.config) fun _ _ => False :=
    start_rule fun _ _ => rfl
  unfold complete
  refine Ensures.bind (Ensures.intro (fun _ run started => ?_) fun _ _ ended =>
    (first.of_error ended).elim)
  refine Ensures.of_get_bind (Ensures.bind ?_)
  rw [first.of_ok started]
  exact (generations_rule _ (.start started) (Nat.zero_add _) last each).mono (fun _ => concludes)
    fun _ _ failure => failure

/-- A run completes, or it fails in one of three ways. -/
theorem complete_ensures (fresh : initial.Fresh) (inhabited : initial.search.goal.pixels ≠ 0) :
    Ensures complete initial (fun _ _ => True) (RunFails initial) := by
  have last (run : Run) (reached : initial.Reaches initial.search.config.generations run) :
      ∃ bound, Evolved initial bound run := ⟨_, reached.evolved fresh inhabited⟩
  refine complete_rule last ?_ ?_
  · intro number run reached more
    have evolved := reached.evolved fresh inhabited
    refine (generation_ensures evolved inhabited number).mono (fun _ _ ended _ => ⟨_, ended.2⟩) ?_
    intro cause final failure
    cases failure with
    | exhausted fits empty => exact .exhausted empty
    | unnamed fits directory => exact .unnamed (by rw [← evolved.outputDirectory, directory])
    | overflow tall =>
        exact .overflow reached more tall ((evolved.errors inhabited).2 tall) (evolved.deep tall)
  · intro run ended
    rcases ended with ⟨bound, settled⟩
    exact (conclude_ensures settled inhabited).mono (fun _ _ _ => trivial) fun _ _ never => never.elim

/-- A run that reaches a generation goes on from there. -/
theorem Reaches.complete_eq (reached : initial.Reaches number run)
    (inhabited : initial.search.goal.pixels ≠ 0) (count : number ≤ initial.search.config.generations) :
    complete initial =
      (generations (initial.search.config.generations - number) number >>= fun _ => conclude) run := by
  induction reached with
  | start started =>
      have kept := (Reaches.start started).kept inhabited
      unfold complete
      rw [bind_of_ok started, Nat.sub_zero, ← kept.config]
      rfl
  | @next number run after reached more bred inductionHypothesis =>
      rw [inductionHypothesis (Nat.le_of_lt more)]
      apply bind_congr
      rw [show initial.search.config.generations - number =
        (initial.search.config.generations - (number + 1)) + 1 by omega]
      rw [generations, bind_of_ok bred]
      rfl

end Reached

end Run

/-- A search with one individual, which is its own parent. -/
def Config.lone (generations mutationsPerChild : Nat) : Config where
  populationSize := 1
  generations := generations
  parents := 1
  elites := 0
  mutationsPerChild := mutationsPerChild
  model := .squared
  workers := 1
  seed := none
  patience := none
  one_le_parents := Nat.le_refl _
  parents_le := Nat.le_refl _
  elites_le := Nat.zero_le _
  one_le_workers := Nat.le_refl _
  one_le_patience := nofun

end EvoRaster
