import EvoRaster.Report.Transcript

/-!
Contract: a whole search, from the first generation to the last.

Owns:
- the run, a search with its transcript and the count of generations without improvement;
- `start`, `generation` and `conclude`, and `complete`, which strings them together;
- the files of the best individual and of the results.

A generation is evaluated, ranked, saved if it beats everything saved before, and recorded. Unless patience has
run out, the next one is bred, after the last generation too.
-/

namespace EvoRaster

/-- A search that reports what it does. -/
structure Run where
  search : Search
  verbose : Bool
  /-- Where files of the best individuals go, if anywhere. -/
  outputDirectory : Option String
  stale : Nat := 0
  transcript : Transcript := {}

/-- A step of a run. It may fail, and answers the run that it leaves in either case. -/
abbrev RunStep := ExceptT SearchError (StateM Run)

namespace Run

def create (goal : GrayImage) (config : Config) (source : Source) (outputDirectory : Option String)
    (verbose : Bool) (transcript : Transcript) : Run :=
  { search := { goal, config, source }, verbose, outputDirectory, transcript }

def searchStep {α : Type} (step : SearchStep α) : RunStep α := fun run =>
  let (outcome, search) := step.run run.search
  (outcome, { run with search })

def announce (notice : Notice) : RunStep Unit :=
  modify fun run =>
    if run.verbose then { run with transcript := run.transcript.add notice } else run

def writeFile (name : String) (content : FileContent) : RunStep Unit :=
  modify fun run => { run with transcript := run.transcript.addFile name content }

/-- Announces the search and fills the first generation. -/
def start : RunStep Unit := do
  let run ← get
  announce (.starting run.search.config.populationSize run.search.config.generations
    run.search.goal.width run.search.goal.height)
  announce (.workers run.search.config.workers)
  searchStep Search.populate
  modify fun run => { run with stale := 0 }

/-- The name of a generation's file. The number has at least five digits. -/
def generationFile (directory : String) (number : Nat) (extension : String) : String :=
  let digits := toString number
  inDirectory directory
    ("result_gen_" ++ "".pushn '0' (5 - digits.length) ++ digits ++ "." ++ extension)

/-- Writes the picture of a program beside the goal, and the text of the program. -/
def writeBest (number : Nat) (program : Program) : RunStep Unit := do
  let run ← get
  match run.outputDirectory with
  | none => return
  | some directory =>
      if directory.isEmpty then throw .emptyName
      let goal := run.search.goal
      let generated ← (goal.renderAlike program).mapError SearchError.fitness
      let picture ← (goal.beside generated).mapError fun cause => SearchError.fitness (.image cause)
      writeFile (generationFile directory number "png") (.picture picture)
      let text ← program.text.mapError SearchError.text
      writeFile (generationFile directory number "txt") (.text text)

/-- Saves the best individual of a generation if it beats everything saved before. -/
def saveBest (number : Nat) (program : Program) (error : Float) : RunStep Unit := do
  if error < (← get).search.lastSavedError then
    writeBest number program
    modify fun run => { run with search := { run.search with lastSavedError := error } }

def record (number : Nat) (program : Program) (error : Float) : RunStep Unit := do
  let errorPerPixel ← (← get).search.perPixel error
  let entry : HistoryEntry :=
    { generation := number, bestError := error, errorPerPixel, codeSize := program.length }
  modify fun run =>
    { run with search := { run.search with history := run.search.history.push entry } }
  announce (.generation number (← get).search.population.length program.length errorPerPixel)

/-- Counts generations without improvement and decides whether patience has run out. -/
def losesPatience (previousBest : Float) : RunStep Bool := do
  modify fun run =>
    { run with stale := if run.search.bestError < previousBest then 0 else run.stale + 1 }
  let run ← get
  match run.search.config.patience with
  | none => return false
  | some limit =>
      if limit ≤ run.stale then
        announce (.stopping run.stale)
        return true
      else
        return false

/-- One generation. Answers whether the run stops before the next. -/
def generation (number : Nat) : RunStep Bool := do
  modify fun run => { run with search := { run.search with generation := number } }
  let previousBest := (← get).search.bestError
  searchStep Search.evaluate
  searchStep Search.rank
  let best ← (← get).search.population.best.mapError SearchError.population
  let error ← best.knownError.mapError SearchError.population
  saveBest number best.program error
  record number best.program error
  if ← losesPatience previousBest then
    return true
  else
    searchStep Search.evolve
    return false

/-- The given count of generations, unless the run stops before. -/
def generations : Nat → Nat → RunStep Unit
  | 0, _ => return
  | remaining + 1, number => do
      if ← generation number then
        return
      else
        generations remaining (number + 1)

def conclude : RunStep Unit := do
  let run ← get
  match run.search.champion with
  | none => return
  | some champion =>
      if run.verbose then
        let errorPerPixel ← run.search.perPixel champion.error
        announce (.bestError champion.error errorPerPixel)
        let text ← champion.program.text.mapError SearchError.text
        announce (.bestProgram text)

def complete : RunStep Unit := do
  start
  generations (← get).search.config.generations 0
  conclude

def saveResults (name : String) : RunStep Unit := do
  let results ← Results.ofSearch (← get).search
  if name.isEmpty then throw .emptyName
  writeFile name (.results results)
  announce (.resultsSaved name)

/-- All generations of a run, and its results under a name, if one is given. -/
def completeAndSave (name : Option String) : RunStep Unit := do
  complete
  match name with
  | some name => saveResults name
  | none => return

end Run

end EvoRaster
