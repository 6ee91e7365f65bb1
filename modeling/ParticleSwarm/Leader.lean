import ParticleSwarm.Particle

/-!
# The leader of a swarm

The leader is the best point found so far, with its rank.  `challenge` pits it against another
point, and `scan` against the remembered points of a list of particles, one after the other.  Only
a strictly better rank unseats it, so that of several equals the first one stays.
-/

namespace ParticleSwarm

/-- The best point found so far and its rank. -/
structure Leader where
  point : Point
  fitness : Float
deriving DecidableEq, Repr

namespace Leader

/-- The leader before anything is found: the origin, with the worst rank. -/
def none : Leader := ⟨.origin, Fitness.worst⟩

/-- The better of the leader and a point with its rank.  The leader keeps its place in a tie. -/
def challenge (l : Leader) (point : Point) (rank : Float) : Leader :=
  if rank < l.fitness then ⟨point, rank⟩ else l

theorem fitness_challenge (l : Leader) (point : Point) (rank : Float) :
    (l.challenge point rank).fitness = if rank < l.fitness then rank else l.fitness := by
  unfold challenge
  split <;> rfl

theorem point_challenge (l : Leader) (point : Point) (rank : Float) :
    (l.challenge point rank).point = if rank < l.fitness then point else l.point := by
  unfold challenge
  split <;> rfl

/-- Scans the remembered points in order, up to the first failure, for one that ranks strictly
    before the leader.  Tells whether the leader has changed. -/
def scan {σ : Type} (o : Objective σ) (leader : Leader) (changed : Bool) :
    List Particle → StateM (Session σ) (Except SearchError Bool × Leader)
  | [], s => ((.ok changed, leader), s)
  | p :: rest, s =>
    match p.evaluateBest o s with
    | (.error e, s) => ((.error e, leader), s)
    | (.ok fitness, s) =>
      let rank := Fitness.rank fitness
      scan o (leader.challenge p.personalBest rank) (changed || decide (rank < leader.fitness))
        rest s

end Leader

end ParticleSwarm
