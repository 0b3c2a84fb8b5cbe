import EvoRaster.Image.Gray

/-!
Contract: the gray image of a color image.

A gray sample is the weighted sum of red, green and blue, added in that order in single precision and cut down
to a whole number. Channels after the third are ignored.
-/

namespace EvoRaster

def luminance (red green blue : Float32) : Float32 :=
  0.3 * red + 0.59 * green + 0.11 * blue

/-- The gray image of color samples, which follow each other channel by channel, pixel by pixel and row by row. -/
def GrayImage.ofColors (width height channels : Nat) (samples : Array Float32) :
    Except ImageError GrayImage := do
  if channels < 3 then
    throw (.noChannel channels channels)
  if samples.size ≠ width * height * channels then
    throw (.sampleCount (width * height * channels : Nat) samples.size)
  let component := fun (position : Nat) (channel : Nat) =>
    samples[position * channels + channel]?.getD 0
  return {
    width, height
    samples := Vector.ofFn fun position =>
      (luminance (component position 0) (component position 1) (component position 2)).toUInt8 }

end EvoRaster
