import ParticleSwarm.Generator
import ParticleSwarm.History
import ParticleSwarm.Swarm.Protocol

/-!
# Runs and batches

An `Optimizer` is an objective with a name and a configuration that has passed validation.  A run
starts a fresh swarm and takes the configured number of steps, recording the leader's fitness after
the start and after each step.  A batch is a number of runs, one after the other, each with a
generator of its own; the objective keeps its memory from run to run, and the first failure ends
the batch.

Memory is taken to be unbounded, for the particles of a swarm, for histories and for the results of
a batch.  What is reserved beforehand does not matter then, but how much that is has to be a 64-bit
number: the call of a run begins with a sum that may overflow.  `launch` is the whole call, and
`runWith` is what follows the sum, in a batch as well.
-/

namespace ParticleSwarm

/-- The outcome of one run. -/
structure RunResult where
  best : Leader
  history : History
deriving DecidableEq, Repr

/-- The outcomes of a batch, in the order of the runs. -/
structure Summary where
  objectiveName : String
  runs : List RunResult
deriving DecidableEq, Repr

namespace Summary

/-- The run of least rank, the earliest of several. -/
def bestRun? (s : Summary) : Option RunResult := Fitness.best? (·.best.fitness) s.runs

def bestIndex? (s : Summary) : Option Nat :=
  (Fitness.best? (·.1.best.fitness) s.runs.zipIdx).map Prod.snd

/-- The sum of the best fitness values, added to `-0.0` from first to last. -/
def total (s : Summary) : Float :=
  s.runs.foldl (fun sum run => sum + run.best.fitness) (-0.0)

def mean? (s : Summary) : Option Float :=
  if s.runs.isEmpty then none else some (s.total / .ofNat s.runs.length)

end Summary

/-- The generator of a run.  Its seed is the seed of the configuration plus the number of the run,
    modulo `2 ^ 64`, or the entropy of the run if the configuration has no seed. -/
def Config.generatorFor (c : Config) (entropy : Nat → UInt64) (run : Nat) : Generator :=
  .ofSeed <|
    match c.seed with
    | some seed => seed + .ofNat run
    | none => entropy run

/-- An objective to be minimised, under a name and with a configuration that passes validation. -/
structure Optimizer (σ : Type) where
  objective : Objective σ
  name : String
  config : Config
  valid : config.validate = .ok ()

def checkedAdd (a b : UInt64) : Option UInt64 :=
  if a.toNat + b.toNat < UInt64.size then some (a + b) else none

/-- The room that a run reserves for its history: one cost after the start and one after each
    step. -/
def Config.historyRoom? (c : Config) : Option UInt64 := checkedAdd c.maxIterations 1

/-- What becomes of the call of a run. -/
inductive Ending (σ : Type) where
  /-- The room for the history is no 64-bit number. -/
  | overflow
  | returned (outcome : Except SearchError RunResult) (session : Session σ)

namespace Optimizer

variable {σ γ : Type}

def ofConfig (objective : Objective σ) (name : String) (config : Config) :
    Except SearchError (Optimizer σ) :=
  match h : config.validate with
  | .ok () => .ok ⟨objective, name, config, h⟩
  | .error e => .error e

section Runs

variable [WordSource γ]

/-- Takes a number of steps and records the leader's fitness after each.  The steps are numbered
    from `first`. -/
def iterate (o : Objective σ) (count first : Nat) (h : History) : Course σ γ History :=
  match count with
  | 0 => return h
  | count + 1 => do
    Swarm.step o
    let fitness := (← get).swarm.leader.fitness
    Course.note (.iteration first fitness)
    iterate o count (first + 1) (h.observe fitness)

def course (o : Objective σ) (steps : Nat) : Course σ γ RunResult := do
  Swarm.start o
  let history ← iterate o steps 0 (History.empty.observe (← get).swarm.leader.fitness)
  return ⟨(← get).swarm.leader, history⟩

def stage (c : Config) (session : Session σ) (generator : γ) : Stage σ γ :=
  ⟨Swarm.ofConfig c, session, generator⟩

/-- One run with a fresh swarm that draws from the given generator. -/
def runWith (opt : Optimizer σ) (generator : γ) : Trial σ RunResult := fun session =>
  let result :=
    course opt.objective opt.config.maxIterations.toNat (stage opt.config session generator)
  (result.1, result.2.session)

/-- The call of a run.  Where the room for the history overflows, a checked sum stops the program
    before the first question.  A sum that wraps around lets the run go on, but not to a result,
    whose history would have a length that is no 64-bit number. -/
def launch (opt : Optimizer σ) (generator : γ) (session : Session σ) : Ending σ :=
  match opt.config.historyRoom? with
  | none => .overflow
  | some _ =>
    let result := opt.runWith generator session
    .returned result.1 result.2

def runs (opt : Optimizer σ) (generatorFor : Nat → γ) (count first : Nat) :
    Trial σ (List RunResult) :=
  match count with
  | 0 => return []
  | count + 1 => do
    let run ← opt.runWith (generatorFor first)
    Trial.note (.runFinished first run.best.point run.best.fitness)
    let rest ← opt.runs generatorFor count (first + 1)
    return run :: rest

def batch (opt : Optimizer σ) (generatorFor : Nat → γ) : Trial σ Summary := do
  let c := opt.config
  Trial.note (.batchStarted opt.name c.numRuns c.populationSize c.maxIterations)
  let runs ← opt.runs generatorFor c.numRuns.toNat 0
  return ⟨opt.name, runs⟩

end Runs

def runOnce (opt : Optimizer σ) (entropy : Nat → UInt64) : Trial σ RunResult :=
  opt.runWith (opt.config.generatorFor entropy 0)

def runMany (opt : Optimizer σ) (entropy : Nat → UInt64) : Trial σ Summary :=
  opt.batch (opt.config.generatorFor entropy)

end Optimizer

end ParticleSwarm
