/-!
# Coefficients of the velocity update

A new velocity is a weighted sum of three parts: the old velocity (inertia), the pull towards the
particle's own best (cognitive) and the pull towards the swarm's best (social).
-/

namespace ParticleSwarm

/-- One of the three parts of a velocity. -/
inductive Weight where
  | inertia
  | cognitive
  | social
deriving DecidableEq, Repr

def Weight.symbol : Weight → String
  | .inertia => "w"
  | .cognitive => "c1"
  | .social => "c2"

/-- The weights of the three parts.  The defaults are the constriction-equivalent values. -/
structure Coefficients where
  inertia : Float := 0.729844
  cognitive : Float := 1.496180
  social : Float := 1.496180
deriving DecidableEq, Repr

def Coefficients.value (c : Coefficients) : Weight → Float
  | .inertia => c.inertia
  | .cognitive => c.cognitive
  | .social => c.social

end ParticleSwarm
