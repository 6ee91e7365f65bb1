import ParticleSwarm.Coefficients
import ParticleSwarm.Decimal.Layout
import ParticleSwarm.Point

/-!
# What can go wrong

A search is refused for its bounds, its population size or one of its coefficients, a name may
stand for no objective, and an objective may fail with a reason of its own.  `message` holds the
only wording of each cause.
-/

namespace ParticleSwarm

/-- Why a search could not be set up or carried on. -/
inductive SearchError where
  | invalidBounds (axis : Axis) (min max : Float)
  | invalidPopulationSize (size : UInt64)
  | invalidCoefficient (weight : Weight) (value : Float)
  | unknownObjective (name : String)
  | objectiveFailed (reason : String)
deriving DecidableEq, Repr

namespace SearchError

/-- Numbers in messages are written out, with no point behind a whole number. -/
def numberStyle : Decimal.Style := ⟨false, fun _ => true⟩

def message : SearchError → String
  | invalidBounds axis min max =>
    "Invalid " ++ axis.name ++ " bounds: min=" ++ numberStyle.render min ++
      ", max=" ++ numberStyle.render max
  | invalidPopulationSize size =>
    "Population size must be at least 1, got " ++ toString size.toNat
  | invalidCoefficient weight value =>
    "PSO coefficient `" ++ weight.symbol ++ "` must be finite, got " ++ numberStyle.render value
  | unknownObjective name => "Unknown objective function `" ++ name ++ "`"
  | objectiveFailed reason => "Objective function error: " ++ reason

end SearchError

end ParticleSwarm
