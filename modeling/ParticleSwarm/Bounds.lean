import ParticleSwarm.Error

/-!
# The rectangle that is searched

`Bounds` are the two corners of a rectangle.  `validate` accepts finite corners in the right
order, `contains` is the closed rectangle, and `clamp` and `damp` bring a particle back: a
coordinate beyond an end is moved to that end, and a velocity component that is itself no number
between the two ends of its axis is set to zero.  A NaN coordinate compares with nothing and is
left as it is.
-/

namespace ParticleSwarm

/-- A rectangle, by its lower left and its upper right corner. -/
structure Bounds where
  min : Point
  max : Point
deriving DecidableEq, Repr

namespace Bounds

def rectangle (minX maxX minY maxY : Float) : Bounds := ⟨⟨minX, minY⟩, ⟨maxX, maxY⟩⟩

def square (min max : Float) : Bounds := rectangle min max min max

/-! ### Validation -/

/-- The ends of an axis are good when both are finite and the lower is not above the upper. -/
def validateAlong (b : Bounds) (a : Axis) : Except SearchError Unit :=
  if (b.min.along a).isFinite ∧ (b.max.along a).isFinite ∧ ¬ b.min.along a > b.max.along a then
    .ok ()
  else .error (.invalidBounds a (b.min.along a) (b.max.along a))

def validate (b : Bounds) : Except SearchError Unit := do
  b.validateAlong .x
  b.validateAlong .y

/-! ### Containment and clamping -/

def containsAlong (b : Bounds) (a : Axis) (v : Float) : Bool :=
  decide (v ≥ b.min.along a) && decide (v ≤ b.max.along a)

def contains (b : Bounds) (p : Point) : Bool :=
  b.containsAlong .x p.x && b.containsAlong .y p.y

def clampAlong (b : Bounds) (a : Axis) (v : Float) : Float :=
  if v > b.max.along a then b.max.along a
  else if v < b.min.along a then b.min.along a
  else v

def clamp (b : Bounds) (p : Point) : Point := .ofAxes fun a => b.clampAlong a (p.along a)

def dampAlong (b : Bounds) (a : Axis) (v : Float) : Float :=
  if v > b.max.along a ∨ v < b.min.along a then 0 else v

/-- Stops the components of a velocity that lie beyond the ends of their axes.  Velocities are
    measured against the ends of the rectangle and have no limit of their own. -/
def damp (b : Bounds) (v : Point) : Point := .ofAxes fun a => b.dampAlong a (v.along a)

end Bounds

end ParticleSwarm
