import EvoRaster.CommandLine.Arguments
import EvoRaster.Search.Run

/-!
Contract: the two commands, from their arguments to the files and messages they leave.

Owns:
- `search`, which takes options;
- `launch`, which takes the image, the population size and the number of generations in this order;
- `Command.execute`, which does the whole of either.

Both commands save their results, and say what they do. What they need from outside is how an image is loaded
and a source for searches without a seed.
-/

namespace EvoRaster.CommandLine

inductive LoadError where
  | missing (name : String)
  | unidentified (name : String)
deriving DecidableEq, Repr

def LoadError.message : LoadError → String
  | .missing name =>
      "[Errno 2] No such file or directory: " ++ String.ofList (Text.quoted name)
  | .unidentified name => "cannot identify image file " ++ String.ofList (Text.quoted name)

inductive CommandError where
  | refusal (cause : Refusal)
  | numeral (cause : Text.NumeralError)
  | config (cause : ConfigError)
  | load (cause : LoadError)
  | search (cause : SearchError)
deriving DecidableEq, Repr

def CommandError.message : CommandError → String
  | .refusal cause => cause.message
  | .numeral cause => cause.message
  | .config cause => cause.message
  | .load cause => cause.message
  | .search cause => cause.message

/-- What a command needs from outside. -/
structure Surroundings where
  load : String → Except LoadError GrayImage
  unseeded : Source

inductive Command where
  | search
  | launch
deriving DecidableEq, Repr

/-- A command that is ready to run. -/
structure Job where
  command : Command
  run : Run
  results : String

namespace Command

def launchDirectory : String := "result"

def resultsIn (directory : String) : String := inDirectory directory "pixapprox_results.json"

def sourceFor (surroundings : Surroundings) (config : Config) : Source :=
  match config.seed with
  | some seed => Source.ofSeed seed
  | none => surroundings.unseeded

/-- Reads the arguments of the search and loads its goal. The settings are checked first. -/
def prepareSearch (surroundings : Surroundings) (texts : List String) :
    Except CommandError Job := do
  let (image, arguments) ← (Arguments.read texts).mapError .refusal
  let config ← arguments.settings.check.mapError .config
  let goal ← (surroundings.load image).mapError .load
  return {
    command := .search
    run := Run.create goal config (sourceFor surroundings config) (some arguments.output) true {}
    results := resultsIn arguments.output }

structure LaunchRequest where
  image : String
  populationSize : Int
  generations : Int

/-- A whole number at a place among the arguments, or a default if there are not so many. -/
def numberAt (texts : List String) (place : Nat) (default : Int) : Except Text.NumeralError Int :=
  match texts[place]? with
  | some text => Text.readInteger text
  | none => .ok default

/-- Reads the arguments of the launcher. Arguments after the third are ignored. -/
def readLaunch (texts : List String) : Except Text.NumeralError LaunchRequest := do
  let image := texts[0]?.getD "images/mona_lisa_small.png"
  let populationSize ← numberAt texts 1 70
  let generations ← numberAt texts 2 15000
  return { image, populationSize, generations }

/-- Announces the launch, loads the goal and then checks the settings. -/
def prepareLaunch (surroundings : Surroundings) (texts : List String) :
    Except CommandError Job × Transcript :=
  match readLaunch texts with
  | .error cause => (.error (.numeral cause), {})
  | .ok request =>
      let announced : Transcript := Transcript.add {}
        (.launching request.image request.populationSize request.generations)
      let job : Except CommandError Job := do
        let goal ← (surroundings.load request.image).mapError .load
        let settings : Settings :=
          { populationSize := request.populationSize, generations := request.generations }
        let config ← settings.check.mapError .config
        return {
          command := .launch
          run := Run.create goal config (sourceFor surroundings config) (some launchDirectory) true
            announced
          results := resultsIn launchDirectory }
      (job, announced)

/-- A command with its arguments read and its goal loaded, and what it has printed so far. -/
def prepare (command : Command) (surroundings : Surroundings) (texts : List String) :
    Except CommandError Job × Transcript :=
  match command with
  | .search => (prepareSearch surroundings texts, {})
  | .launch => prepareLaunch surroundings texts

/-- What a command does after its search: it saves the results, and the launcher says so. -/
def finish (command : Command) (results : String) : RunStep Unit :=
  match command with
  | .search => Run.saveResults results
  | .launch => do
      Run.announce (.finalError (← get).search.bestError)
      Run.saveResults results
      Run.announce (.savedTo results)

/-- The whole of a command, and everything it leaves. -/
def execute (command : Command) (surroundings : Surroundings) (texts : List String) :
    Except CommandError Unit × Transcript :=
  match command.prepare surroundings texts with
  | (.error cause, transcript) => (.error cause, transcript)
  | (.ok job, _) =>
      let step : RunStep Unit := do
        Run.complete
        command.finish job.results
      let (outcome, run) := step.run job.run
      (outcome.mapError .search, run.transcript)

end Command

end EvoRaster.CommandLine
