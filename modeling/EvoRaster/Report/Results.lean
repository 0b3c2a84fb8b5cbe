import EvoRaster.Decimal.Layout
import EvoRaster.Report.Document
import EvoRaster.Search.State

/-!
Contract: the results of a search as a report.

Owns:
- what the report holds: the best program and its error, the history and the configuration;
- its text, for given durations of the generations.

A program without instructions is reported as missing.
-/

namespace EvoRaster

structure Results where
  bestError : Float
  bestProgram : Option String
  bestFolded : Option String
  history : List HistoryEntry
  config : Config

/-- The style of numbers in reports of results, where special numbers are spelled out. -/
def resultsStyle : Decimal.Style :=
  { Decimal.reportStyle with infinity := "Infinity".toList, undefined := "NaN".toList }

namespace Results

def ofSearch (search : Search) : Except SearchError Results := do
  let reported := search.bestProgram.filter fun program => !program.isEmpty
  let bestProgram ← reported.mapM fun program => program.text.mapError SearchError.text
  let bestFolded ← reported.mapM fun program => do
    let folded ← program.fold.mapError SearchError.fold
    folded.text.mapError SearchError.text
  return {
    bestError := search.bestError
    bestProgram, bestFolded
    history := search.history.toList
    config := search.config }

def number (value : Float) : Document :=
  .word (String.ofList (Decimal.double resultsStyle value))

/-- The record of one generation, with its duration. -/
def entry (duration : String) (entry : HistoryEntry) : Document :=
  .record [
    ("generation", .natural entry.generation),
    ("best_error", number entry.bestError),
    ("error_per_pixel", number entry.errorPerPixel),
    ("code_size", .natural entry.codeSize),
    ("time", .word duration)]

def configuration (config : Config) : Document :=
  .record [
    ("population_size", .natural config.populationSize),
    ("generations", .natural config.generations),
    ("n_best", .natural config.parents),
    ("n_elite", .natural config.elites),
    ("mutations_per_child", .natural config.mutationsPerChild),
    ("nvars", .natural Config.registers),
    ("perceptual", .truth (config.model = .perceptual)),
    ("workers", .natural config.workers),
    ("seed", .optional .integer config.seed),
    ("patience", .optional .natural config.patience)]

/-- The text of the report. `duration` gives the seconds that a generation took, as text. -/
def text (results : Results) (duration : Nat → String) : String :=
  Document.text <| .record [
    ("best_error", number results.bestError),
    ("best_program", .optional .quoted results.bestProgram),
    ("best_program_optimized", .optional .quoted results.bestFolded),
    ("history", .list (results.history.map fun past => entry (duration past.generation) past)),
    ("config", configuration results.config)]

end Results

end EvoRaster
