import ParticleSwarm.Swarm

/-!
# The protocol of a run

A run starts with particles at drawn positions and then takes one step after the other.  A step
brings the particles within bounds, evaluates them, looks for a new leader, and only then draws new
velocities and moves.  Starting ends with the first three of these, so that the leader means
something even when no step follows.

A `Stage` is a swarm together with the session of its objective and its generator.  An operation
is a computation on the stage that may fail; what it has changed before a failure stays changed.
-/

namespace ParticleSwarm

/-- A swarm, the session of its objective, and its generator. -/
structure Stage (σ γ : Type) where
  swarm : Swarm
  session : Session σ
  generator : γ
deriving DecidableEq, Repr

/-- An attempt on a stage. -/
abbrev Course (σ γ : Type) := Attempt (Stage σ γ)

namespace Course

variable {σ γ : Type}

def change (f : Swarm → Swarm) : Course σ γ Unit :=
  modify fun st => { st with swarm := f st.swarm }

@[simp] theorem change_apply (f : Swarm → Swarm) (st : Stage σ γ) :
    change f st = (.ok (), { st with swarm := f st.swarm }) := rfl

def draw (f : Swarm → StateM γ Swarm) : Course σ γ Unit := fun st =>
  let result := f st.swarm st.generator
  (.ok (), { st with swarm := result.1, generator := result.2 })

@[simp] theorem draw_apply (f : Swarm → StateM γ Swarm) (st : Stage σ γ) :
    draw f st =
      (.ok (), { st with
        swarm := (f st.swarm st.generator).1
        generator := (f st.swarm st.generator).2 }) := rfl

def note (e : Event) : Course σ γ Unit :=
  modify fun st => { st with session := st.session.note e }

@[simp] theorem note_apply (e : Event) (st : Stage σ γ) :
    note e st = (.ok (), { st with session := st.session.note e }) := rfl

end Course

namespace Swarm

variable {σ γ : Type}

def evaluate (o : Objective σ) : Course σ γ Unit := fun st =>
  let result := Particle.reviewAll o st.swarm.particles st.session
  (result.1.1,
    { st with swarm := { st.swarm with particles := result.1.2 }, session := result.2 })

/-- Looks for a new leader.  Tells whether there is one. -/
def refresh (o : Objective σ) : Course σ γ Bool := fun st =>
  let result := Leader.scan o st.swarm.leader false st.swarm.particles st.session
  (result.1.1, { st with swarm := { st.swarm with leader := result.1.2 }, session := result.2 })

/-- Brings the particles within bounds, evaluates them and looks for a new leader. -/
def pass (o : Objective σ) : Course σ γ Unit := do
  Course.change confine
  evaluate o
  let _ ← refresh o

variable [WordSource γ]

/-- Forgets particles and leader, and draws new particles.  Nothing is drawn when the sampler
    cannot be built, but the particles are gone all the same. -/
def scatter : Course σ γ Unit := do
  Course.change cleared
  let swarm := (← get).swarm
  let sampler ← liftExcept (Sampler.build swarm.bounds swarm.sampling)
  Course.draw (populate sampler)

def start (o : Objective σ) : Course σ γ Unit := do
  scatter
  pass o

def step (o : Objective σ) : Course σ γ Unit := do
  pass o
  Course.draw accelerate
  Course.change advance

end Swarm

/-! ### Operations as data -/

/-- The operations on a swarm. -/
inductive Operation where
  | start
  | step
  | confine
  | evaluate
  | refresh
  | accelerate
  | advance
deriving DecidableEq, Repr

/-- Carries out an operation.  Looking for a new leader tells whether there is one. -/
def Operation.perform {σ γ : Type} [WordSource γ] (o : Objective σ) :
    Operation → Course σ γ (Option Bool)
  | start => do Swarm.start o; return none
  | step => do Swarm.step o; return none
  | confine => do Course.change Swarm.confine; return none
  | evaluate => do Swarm.evaluate o; return none
  | refresh => do return some (← Swarm.refresh o)
  | accelerate => do Course.draw Swarm.accelerate; return none
  | advance => do Course.change Swarm.advance; return none

end ParticleSwarm
