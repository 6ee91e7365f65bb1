import ParticleSwarm.Point

/-!
# The log

What a search reports while it runs is a list of `Event`s.  Each kind of event has a level, a
fixed text and named fields.
-/

namespace ParticleSwarm

/-- Something worth reporting. -/
inductive Event where
  /-- The objective gave a value at a particle's position that is not finite. -/
  | nonFinite (position : Point) (fitness : Float)
  | iteration (index : Nat) (globalFitness : Float)
  | batchStarted (objective : String) (runs population iterations : UInt64)
  | runFinished (run : Nat) (best : Point) (fitness : Float)
deriving DecidableEq, Repr

/-- How much an event matters. -/
inductive Level where
  | warning
  | information
  | detail
deriving DecidableEq, Repr

inductive Field where
  | number (value : Float)
  | count (value : Nat)
  | text (value : String)
deriving DecidableEq, Repr

namespace Event

def level : Event → Level
  | nonFinite .. => .warning
  | iteration .. => .detail
  | batchStarted .. => .information
  | runFinished .. => .information

def message : Event → String
  | nonFinite .. => "objective returned a non-finite value"
  | iteration .. => "pso iteration"
  | batchStarted .. => "starting pso batch"
  | runFinished .. => "pso run finished"

def fields : Event → List (String × Field)
  | nonFinite p v => [("x", .number p.x), ("y", .number p.y), ("fitness", .number v)]
  | iteration i v => [("iter", .count i), ("global_fitness", .number v)]
  | batchStarted name runs population iterations =>
    [("objective", .text name), ("runs", .count runs.toNat),
     ("population", .count population.toNat), ("iterations", .count iterations.toNat)]
  | runFinished run p v =>
    [("run", .count run), ("x", .number p.x), ("y", .number p.y), ("fitness", .number v)]

end Event

end ParticleSwarm
