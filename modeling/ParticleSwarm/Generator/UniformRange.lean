import ParticleSwarm.Generator.WordSource

/-!
# Uniform numbers between two ends

A word becomes a number `low + scale · u` with `u` in `[0, 1)`.  The scale is chosen so that the
largest `u` leads to the upper end: it is the width divided by the largest `u`, made smaller by
one unit in the last place for as long as rounding would lead beyond the upper end.
-/

namespace ParticleSwarm

/-- The numbers `low + scale · u` for `u` in `[0, 1)`. -/
structure UniformRange where
  low : Float
  scale : Float
deriving DecidableEq, Repr

namespace UniformRange

/-- The largest number below one that `unitSpan` gives. -/
def largestSpan : Float := 1 - 1 / 4503599627370496

/-- Lowers a scale, given by its bit pattern, until the largest span stays within `high`. -/
def fitScale (low high : Float) : Nat → Float
  | 0 => 0
  | bits + 1 =>
    let scale := Float.ofBits (.ofNat (bits + 1))
    if scale * largestSpan + low > high then fitScale low high bits else scale

/-- The range between two ends, both included.  There is none when the ends are not in order
    or lie so far apart that the scale is not finite. -/
def ofEnds? (low high : Float) : Option UniformRange :=
  if low ≤ high then
    let scale := (high - low) / largestSpan
    if scale.isFinite then some ⟨low, fitScale low high scale.toBits.toNat⟩ else none
  else none

def sample (r : UniformRange) (w : UInt64) : Float := unitSpan w * r.scale + r.low

end UniformRange

end ParticleSwarm
