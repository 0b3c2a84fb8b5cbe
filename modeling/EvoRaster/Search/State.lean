import EvoRaster.Program.Folding
import EvoRaster.Search.Fitness
import EvoRaster.Search.Individual
import EvoRaster.Variation.Mutation

/-!
Contract: the state of a search and the four steps of a generation.

Owns:
- the state: goal, configuration, random source, population, best program so far and history;
- `populate`, `evaluate`, `rank` and `evolve`.

A step that fails leaves the state as it was, except that words drawn by a failed `evolve` stay drawn.
-/

namespace EvoRaster

structure Champion where
  program : Program
  error : Float
deriving DecidableEq

structure HistoryEntry where
  generation : Nat
  bestError : Float
  errorPerPixel : Float
  codeSize : Nat
deriving DecidableEq

inductive SearchError where
  | fitness (cause : FitnessError)
  | population (cause : PopulationError)
  | variation (cause : VariationError)
  | fold (cause : FoldError)
  | text (cause : TextError)
  /-- An error per pixel was asked for and the goal has no pixels. -/
  | noPixels
  /-- A file or directory has an empty name. -/
  | emptyName
deriving DecidableEq, Repr

def SearchError.message : SearchError → String
  | .fitness cause => cause.message
  | .population cause => cause.message
  | .variation cause => cause.message
  | .fold cause => cause.message
  | .text cause => cause.message
  | .noPixels => "float division by zero"
  | .emptyName => "[Errno 2] No such file or directory: ''"

/-- Positive infinity, the error of the best program before there is one. -/
def infiniteError : Float := 1 / 0

structure Search where
  goal : GrayImage
  config : Config
  source : Source
  population : Population := []
  generation : Nat := 0
  champion : Option Champion := none
  lastSavedError : Float := infiniteError
  history : Array HistoryEntry := #[]

/-- A step of a search. It may fail, and answers the state that it leaves in either case. -/
abbrev SearchStep := ExceptT SearchError (StateM Search)

namespace Search

def bestError (search : Search) : Float :=
  match search.champion with
  | some champion => champion.error
  | none => infiniteError

def bestProgram (search : Search) : Option Program := search.champion.map Champion.program

def perPixel (search : Search) (error : Float) : Except SearchError Float :=
  if search.goal.pixels = 0 then .error .noPixels
  else .ok (error / Float.ofNat search.goal.pixels)

def replacePopulation (population : Population) : SearchStep Unit :=
  modify fun search => { search with population }

def populate : SearchStep Unit :=
  modify fun search => { search with population := Population.seeds search.config.populationSize }

/-- The errors of all individuals, in the order of their slots. -/
def errors (search : Search) : Except FitnessError (List Float) :=
  search.population.mapM fun individual =>
    search.goal.programError search.config.model individual.program

/-- Stores the errors of all individuals. Nothing is stored before all errors are known. -/
def evaluate : SearchStep Unit := do
  let search ← get
  let errors ← search.errors.mapError SearchError.fitness
  set { search with population := List.zipWith Individual.evaluated search.population errors }

/-- Replaces the best program so far if the given one is strictly better. -/
def noteBest (search : Search) (program : Program) (error : Float) : Search :=
  if error < search.bestError then
    { search with champion := some { program, error } }
  else
    search

/-- Sorts the population by error and notes the best individual. -/
def rank : SearchStep Unit := do
  let search ← get
  let ranked ← search.population.ranked.mapError SearchError.population
  set { search with population := ranked }
  let best ← ranked.best.mapError SearchError.population
  let error ← best.knownError.mapError SearchError.population
  modify fun search => search.noteBest best.program error

/-- The program of one slot of the next generation: a parent, mutated. Parents take turns. -/
def child (config : Config) (ranked : Population) (slot : Nat) : Variation (Option Program) :=
  match ranked[slot % config.parents]? with
  | none => return none
  | some parent => some <$> parent.program.mutateTimes Config.registers config.mutationsPerChild

/-- The programs of the given slots of the next generation, drawn one after the other. -/
def children (config : Config) (ranked : Population) :
    List Nat → ExceptT SearchError (StateM Source) Population
  | [] => return []
  | slot :: slots => do
      let some program ← (child config ranked slot).adapt .variation
        | throw (.population .noIndividual)
      let rest ← children config ranked slots
      return { program } :: rest

/-- The elites of a ranked population, to be evaluated again. -/
def elites (config : Config) (ranked : Population) : Population :=
  (ranked.take config.elites).map fun individual => { program := individual.program }

/-- The next generation: a child in every slot, then the elites over the first ones. -/
def offspring (config : Config) (ranked : Population) :
    ExceptT SearchError (StateM Source) Population := do
  let children ← children config ranked (List.range config.populationSize)
  let kept := elites config ranked
  return kept ++ children.drop kept.length

def evolve : SearchStep Unit := do
  let search ← get
  let (outcome, source) := (offspring search.config search.population).run search.source
  set { search with source }
  let population ← outcome
  modify fun search => { search with population }

end Search

end EvoRaster
