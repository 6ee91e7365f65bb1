import ParticleSwarm.Decimal.Layout

/-!
# Agreement up to a tolerance

Two numbers agree when their distance is below the tolerance; with a NaN anywhere they do not.
The complaint names the numbers, their distance and the tolerance.  Its numbers keep a `.0`, and
very large and very small ones are written with an exponent.
-/

namespace ParticleSwarm.Tolerance

/-- Numbers from `1e-4` up to `1e16` are written out, others with an exponent. -/
def numberStyle : Decimal.Style := ⟨true, fun k => decide (-4 ≤ k ∧ k < 16)⟩

def distance (a b : Float) : Float := (a - b).abs

def complaint (a b tolerance : Float) : String :=
  "values not within tolerance: left = " ++ numberStyle.render a ++
    ", right = " ++ numberStyle.render b ++
    ", |left - right| = " ++ numberStyle.render (distance a b) ++
    ", eps = " ++ numberStyle.render tolerance

def check (a b tolerance : Float) : Except String Unit :=
  if distance a b < tolerance then .ok () else .error (complaint a b tolerance)

end ParticleSwarm.Tolerance
