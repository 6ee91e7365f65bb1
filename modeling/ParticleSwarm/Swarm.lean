import ParticleSwarm.Leader
import ParticleSwarm.Sampler

/-!
# Swarms

A swarm is a list of particles and its leader, the best point found so far with its rank.  The
other entries say how it is sampled and moved; no operation changes them.  This module holds the
operations that neither evaluate nor fail.
-/

namespace ParticleSwarm

/-- The particles of a run and their leader. -/
structure Swarm where
  bounds : Bounds
  coefficients : Coefficients
  populationSize : UInt64
  sampling : Sampling
  particles : List Particle
  leader : Leader
deriving DecidableEq, Repr

namespace Swarm

def ofConfig (c : Config) : Swarm where
  bounds := c.bounds
  coefficients := c.coefficients
  populationSize := c.populationSize
  sampling := c.sampling
  particles := []
  leader := .none

def cleared (s : Swarm) : Swarm := { s with particles := [], leader := .none }

def confine (s : Swarm) : Swarm :=
  { s with particles := s.particles.map (Particle.confine s.bounds) }

def advance (s : Swarm) : Swarm := { s with particles := s.particles.map Particle.advance }

def contained (s : Swarm) : List Bool := s.particles.map fun p => s.bounds.contains p.position

section Draws

variable {γ : Type} [WordSource γ]

def populate (sampler : Sampler) (s : Swarm) : StateM γ Swarm := do
  let positions ← sampler.drawMany s.populationSize.toNat
  return { s with particles := positions.map Particle.atRest }

def accelerate (s : Swarm) : StateM γ Swarm := do
  let particles ← s.particles.mapM (Particle.accelerate s.coefficients s.leader.point)
  return { s with particles }

end Draws

end Swarm

end ParticleSwarm
