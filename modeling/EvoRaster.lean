import EvoRaster.Main
import EvoRaster.Proofs.Precision.Packing
import EvoRaster.Proofs.Evaluation.Items
import EvoRaster.Proofs.Precision.Widening
import EvoRaster.Proofs.Precision.Order
import EvoRaster.Proofs.Evaluation.Expression
import EvoRaster.Proofs.Evaluation.Registers
import EvoRaster.Proofs.Evaluation.Dependence
import EvoRaster.Proofs.Evaluation.Validity
import EvoRaster.Proofs.Evaluation.Uniform
import EvoRaster.Proofs.Folding.Contraction
import EvoRaster.Proofs.Folding.Normal
import EvoRaster.Proofs.Folding.Preservation
import EvoRaster.Proofs.Folding.Completeness
import EvoRaster.Proofs.Height.Course
import EvoRaster.Proofs.Machine.Agreement
import EvoRaster.Proofs.Machine.Rendering
import EvoRaster.Proofs.Outcome.Ensures
import EvoRaster.Proofs.Search.Depth
import EvoRaster.Proofs.Variation.Growth
import EvoRaster.Proofs.Precision.Rounding
import EvoRaster.Proofs.Precision.Digits
import EvoRaster.Proofs.Precision.Arithmetic
import EvoRaster.Proofs.Precision.Range
import EvoRaster.Proofs.Precision.Single
import EvoRaster.Proofs.Image.Finite
import EvoRaster.Proofs.Image.Rings
import EvoRaster.Proofs.Image.Exact
import EvoRaster.Proofs.Image.Discerning
import EvoRaster.Proofs.Image.Motions
import EvoRaster.Proofs.Machine.Pixels
import EvoRaster.Proofs.Machine.Memory
import EvoRaster.Proofs.Machine.Capacity
import EvoRaster.Proofs.Machine.Canvas
import EvoRaster.Proofs.Search.Ranking
import EvoRaster.Proofs.Search.Champion
import EvoRaster.Proofs.Search.Elites
import EvoRaster.Proofs.Search.Patience
import EvoRaster.Proofs.Search.Shortened
import EvoRaster.Proofs.Variation.Obtainable
import EvoRaster.Proofs.Variation.Storage
import EvoRaster.Proofs.Variation.Splices
import EvoRaster.Proofs.Search.Breeding
import EvoRaster.Proofs.Search.Copying
import EvoRaster.Proofs.Search.Slots
import EvoRaster.Proofs.Search.Atomicity
import EvoRaster.Proofs.Text.Reading
import EvoRaster.Proofs.Text.Nearest
import EvoRaster.Proofs.Text.Constant
import EvoRaster.Proofs.Text.Postfix
import EvoRaster.Proofs.Folding.Kept
import EvoRaster.Proofs.Image.Writes
import EvoRaster.Proofs.Evaluation.Calls
import EvoRaster.Proofs.Machine.Shades
import EvoRaster.Proofs.Image.Unreachable
import EvoRaster.Proofs.Image.Halves
import EvoRaster.Proofs.Variation.UnitRange
