import ParticleSwarm.Benchmark

/-!
# Configuration of a batch of runs

A configuration fixes the size of the swarm, the number of passes and of runs, the coefficients,
the bounds, the way of sampling and perhaps a seed.  Counts and seeds are 64-bit words.  A
`Setting` replaces one of the entries other than the bounds.  `validate` reports the first fault
in the order population size, coefficients, bounds.
-/

namespace ParticleSwarm

/-- How initial positions are drawn. -/
inductive Sampling where
  /-- A fair coin picks the side of zero, and a uniform factor the distance on that side. -/
  | splitFromZero
  /-- Uniform between the two ends of each axis. -/
  | uniform
deriving DecidableEq, Repr

/-- The configuration of a batch of runs. -/
structure Config where
  populationSize : UInt64 := 40
  maxIterations : UInt64 := 60
  numRuns : UInt64 := 30
  coefficients : Coefficients := {}
  bounds : Bounds
  sampling : Sampling := .splitFromZero
  /-- Run `k` is seeded with the seed plus `k`; without a seed each run has entropy of its own. -/
  seed : Option UInt64 := none
deriving DecidableEq, Repr

/-- One entry of a configuration, with its new value. -/
inductive Setting where
  | populationSize (size : UInt64)
  | maxIterations (count : UInt64)
  | numRuns (count : UInt64)
  | coefficients (values : Coefficients)
  | sampling (way : Sampling)
  | seed (value : UInt64)
deriving DecidableEq, Repr

def Coefficients.validateWeight (c : Coefficients) (w : Weight) : Except SearchError Unit :=
  if (c.value w).isFinite then .ok () else .error (.invalidCoefficient w (c.value w))

def Coefficients.validate (c : Coefficients) : Except SearchError Unit := do
  c.validateWeight .inertia
  c.validateWeight .cognitive
  c.validateWeight .social

namespace Config

def forBenchmark (b : Benchmark) : Config := { bounds := b.bounds }

def standard : Config := forBenchmark .eggholder

def set (c : Config) : Setting → Config
  | .populationSize size => { c with populationSize := size }
  | .maxIterations count => { c with maxIterations := count }
  | .numRuns count => { c with numRuns := count }
  | .coefficients values => { c with coefficients := values }
  | .sampling way => { c with sampling := way }
  | .seed value => { c with seed := some value }

/-- Checks everything a search relies on: a swarm that is not empty, finite coefficients and
    good bounds. -/
def validate (c : Config) : Except SearchError Unit := do
  if c.populationSize = 0 then throw (.invalidPopulationSize c.populationSize)
  c.coefficients.validate
  c.bounds.validate

end Config

end ParticleSwarm
