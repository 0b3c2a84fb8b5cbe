import EvoRaster.CommandLine.Arguments

/-!
Contract: what the search says about its own command line.

Owns:
- the usage line, for arguments that cannot be understood;
- the help text, which explains the image and every option.
-/

namespace EvoRaster.CommandLine

namespace Choice

def explained : List Choice :=
  [help, generations, population, best, elite, mutations, workers, seed, baseline, patience, output]

def purpose : Choice → String
  | .help => "show this help message and exit"
  | .generations => "Number of generations"
  | .population => "Population size"
  | .best => "Number of parents"
  | .elite => "Unmutated elites per generation"
  | .mutations => "Mutations per child"
  | .workers => "Parallel workers"
  | .seed => "Random seed"
  | .baseline => "Use squared error instead of perceptual error"
  | .patience => "Stop after N non-improving generations"
  | .output => "Output directory"

/-- All spellings of an option, each with a place for the value that it needs. -/
def heading (choice : Choice) : String :=
  let place := if choice.takesValue then " VALUE" else ""
  let matching := spellings.filter fun (_, spelled) => spelled = choice
  ", ".intercalate (matching.map fun (spelling, _) => String.ofList spelling ++ place)

end Choice

def usageLine (program : String) : String := s!"usage: {program} [options] image"

/-- One explained line, its explanation in a column of its own. -/
def helpLine (heading purpose : String) : String :=
  "  " ++ heading ++ "".pushn ' ' (36 - heading.length) ++ "  " ++ purpose

def helpText (program : String) : String :=
  "\n".intercalate <|
    [usageLine program, "", "Evolve a program that approximates an image", "",
      "positional arguments:", helpLine "image" "Goal image", "", "options:"] ++
    Choice.explained.map fun choice => helpLine choice.heading choice.purpose

end EvoRaster.CommandLine
