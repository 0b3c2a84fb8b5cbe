import EvoRaster.Numeric.FromEnd
import EvoRaster.Program.Text

/-!
Contract: individuals and populations.

Owns:
- the individual, a program with the error of its last evaluation;
- the population, in the order of its slots, and its ranking by error.

Ranking is stable and refuses a population with an individual that was not evaluated.
-/

namespace EvoRaster

/-- A program and the error of its last evaluation, if there was one. -/
structure Individual where
  program : Program
  error : Option Float := none
deriving DecidableEq

inductive PopulationError where
  | noIndividual
  | notEvaluated
deriving DecidableEq, Repr

def PopulationError.message : PopulationError → String
  | .noIndividual => "list index out of range"
  | .notEvaluated => "Individual has not been evaluated"

namespace Individual

def seed : Individual := { program := Program.seed }

/-- The individual with the error of an evaluation. -/
def evaluated (individual : Individual) (error : Float) : Individual :=
  { individual with error := some error }

/-- The error, which an evaluation must have left. -/
def knownError (individual : Individual) : Except PopulationError Float :=
  match individual.error with
  | some error => .ok error
  | none => .error .notEvaluated

/-- An individual as text: its error and the text of its program. -/
def description (individual : Individual) : Except TextError String := do
  let program ← individual.program.text
  let error := match individual.error with
    | some error => String.ofList (Decimal.double Decimal.reportStyle error)
    | none => "None"
  return s!"Individual(error={error}, program='{program}')"

end Individual

abbrev Population := List Individual

namespace Population

def seeds (size : Nat) : Population := List.replicate size Individual.seed

/-- The individual that a signed index names. -/
def get (population : Population) (index : Int) : Except PopulationError Individual :=
  match position? population.length index with
  | some position => .ok (List.get population position)
  | none => .error .noIndividual

/-- The population with the individual that a signed index names replaced. -/
def update (population : Population) (index : Int) (change : Individual → Individual) :
    Except PopulationError Population :=
  match position? population.length index with
  | some position => .ok (List.modify population position change)
  | none => .error .noIndividual

def best (population : Population) : Except PopulationError Individual := population.get 0

end Population

/-- The order of errors: smaller first, and an undefined error after all others. -/
def errorAtMost (left right : Float) : Bool := right.isNaN || decide (left ≤ right)

/-- The population in the order of its errors; of equal ones the earlier slot stays first. -/
def Population.ranked (population : Population) : Except PopulationError Population := do
  let keyed ← population.mapM fun individual => do
    return (← individual.knownError, individual)
  return (keyed.mergeSort fun left right => errorAtMost left.1 right.1).map Prod.snd

end EvoRaster
