import ParticleSwarm.Bounds
import ParticleSwarm.Fitness
import ParticleSwarm.Generator.WordSource
import ParticleSwarm.Objective

/-!
# Particles

A particle has a position, a velocity and the best point it remembers.  The value at that point is
never stored: it is asked for anew whenever it is needed, so it always agrees with the objective.

Reviewing a particle asks the objective twice, at the position and at the remembered point.
`reviewAll` does so for a list of particles; it stops at the first failure and keeps the particles
reviewed before it.
-/

namespace ParticleSwarm

/-- A candidate solution on the move. -/
structure Particle where
  position : Point
  velocity : Point
  personalBest : Point
deriving DecidableEq, Repr

namespace Particle

def atRest (position : Point) : Particle := ⟨position, .origin, .origin⟩

/-! ### Evaluation -/

/-- Remembers the position if its value ranks strictly before the value at the remembered point. -/
def remember (p : Particle) (fitness best : Float) : Particle :=
  if Fitness.rank fitness < Fitness.rank best then { p with personalBest := p.position } else p

@[simp] theorem position_remember (p : Particle) (fitness best : Float) :
    (p.remember fitness best).position = p.position := by
  unfold remember
  split <;> rfl

@[simp] theorem velocity_remember (p : Particle) (fitness best : Float) :
    (p.remember fitness best).velocity = p.velocity := by
  unfold remember
  split <;> rfl

theorem personalBest_remember (p : Particle) (fitness best : Float) :
    (p.remember fitness best).personalBest =
      if Fitness.rank fitness < Fitness.rank best then p.position else p.personalBest := by
  unfold remember
  split <;> rfl

section Evaluation

variable {σ : Type} (o : Objective σ) (p : Particle)

def evaluate : Trial σ Float := o.cost p.position

def evaluateBest : Trial σ Float := o.cost p.personalBest

def report (fitness : Float) : Trial σ Unit :=
  unless fitness.isFinite do Trial.note (.nonFinite p.position fitness)

/-- Evaluates the remembered point and remembers the position instead if its value, `fitness`,
    ranks strictly before.  Tells whether it does. -/
def updateBest (fitness : Float) : Trial σ (Particle × Bool) := do
  let best ← p.evaluateBest o
  return (p.remember fitness best, decide (Fitness.rank fitness < Fitness.rank best))

def review : Trial σ Particle := do
  let fitness ← p.evaluate o
  p.report fitness
  let updated ← p.updateBest o fitness
  return updated.1

end Evaluation

/-- Reviews the particles in order, up to the first failure.  The particle that fails and those
    behind it stay as they are. -/
def reviewAll {σ : Type} (o : Objective σ) :
    List Particle → StateM (Session σ) (Except SearchError Unit × List Particle)
  | [], s => ((.ok (), []), s)
  | p :: rest, s =>
    match p.review o s with
    | (.error e, s) => ((.error e, p :: rest), s)
    | (.ok p, s) =>
      let result := reviewAll o rest s
      ((result.1.1, p :: result.1.2), result.2)

/-! ### Motion -/

def confine (b : Bounds) (p : Particle) : Particle :=
  { p with position := b.clamp p.position, velocity := b.damp p.velocity }

def pull (c : Coefficients) (globalBest : Point) (p : Particle) (a : Axis) (r₁ r₂ : Float) :
    Float :=
  c.inertia * p.velocity.along a
    + c.cognitive * r₁ * (p.personalBest.along a - p.position.along a)
    + c.social * r₂ * (globalBest.along a - p.position.along a)

def accelerate {γ : Type} [WordSource γ] (c : Coefficients) (globalBest : Point) (p : Particle) :
    StateM γ Particle := do
  let velocity ← Point.ofAxesM fun a => do
    let r₁ ← drawUnit
    let r₂ ← drawUnit
    return p.pull c globalBest a r₁ r₂
  return { p with velocity }

/-- The factors of the first axis are read from the first two words, those of the second axis from
    the next two. -/
theorem accelerate_apply {γ : Type} [WordSource γ] (c : Coefficients) (globalBest : Point)
    (p : Particle) (g : γ) :
    p.accelerate c globalBest g =
      let factor (n : Nat) : Float := unitInterval (WordSource.word n g)
      ({ p with velocity :=
          ⟨p.pull c globalBest .x (factor 0) (factor 1),
            p.pull c globalBest .y (factor 2) (factor 3)⟩ },
        WordSource.skip 4 g) := rfl

def advance (p : Particle) : Particle := { p with position := p.position + p.velocity }

end Particle

end ParticleSwarm
