import EvoRaster.Image.Difference
import EvoRaster.Machine.Raster
import EvoRaster.Search.Config

/-!
Contract: the error of a program against a goal image.

The program is rendered at the size of the goal and compared with it by the chosen model.
-/

namespace EvoRaster

inductive FitnessError where
  | render (cause : RenderError)
  | image (cause : ImageError)
deriving DecidableEq, Repr

def FitnessError.message : FitnessError → String
  | .render cause => cause.message
  | .image cause => cause.message

namespace GrayImage

/-- The image of a program at the size of the goal. -/
def renderAlike (goal : GrayImage) (program : Program) : Except FitnessError GrayImage := do
  let samples ← (program.render Config.registers goal.width goal.height).mapError .render
  (GrayImage.ofSamples goal.width goal.height samples).mapError .image

def difference (goal : GrayImage) (model : ErrorModel) (generated : GrayImage) :
    Except ImageError Float :=
  match model with
  | .perceptual => goal.perceptualDifference generated
  | .squared => (goal.squaredDifference generated).map Float.ofInt

def programError (goal : GrayImage) (model : ErrorModel) (program : Program) :
    Except FitnessError Float := do
  let generated ← goal.renderAlike program
  (goal.difference model generated).mapError .image

end GrayImage

end EvoRaster
