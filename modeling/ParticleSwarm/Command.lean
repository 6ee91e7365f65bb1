import ParticleSwarm.Benchmark.Name
import ParticleSwarm.Report
import ParticleSwarm.Text.Unsigned

/-!
# The command line

Up to three arguments are read in order: the name of a test function (`eggholder` if missing), the
number of runs and the seed.  The first one that cannot be read ends the program with an error;
further arguments are ignored.  Otherwise the batch is run on the domain of the test function, and
its report is printed.
-/

namespace ParticleSwarm.Command

/-- Why a command line leads to no report. -/
inductive Failure where
  | search (error : SearchError)
  | runCount (argument : String) (cause : Text.UnsignedError)
  | seed (argument : String) (cause : Text.UnsignedError)
deriving DecidableEq, Repr

/-- A complaint about an argument, with the cause behind a blank line. -/
def complaint (what argument : String) (cause : Text.UnsignedError) : String :=
  "invalid " ++ what ++ " `" ++ argument ++ "`\n\nCaused by:\n    " ++ cause.message

def Failure.message : Failure → String
  | search error => error.message
  | runCount argument cause => complaint "run count" argument cause
  | seed argument cause => complaint "seed" argument cause

/-- What a command line asks for. -/
structure Request where
  benchmark : Benchmark
  config : Config
deriving DecidableEq, Repr

def readSetting (argument? : Option String) (setting : UInt64 → Setting)
    (failure : String → Text.UnsignedError → Failure) (c : Config) : Except Failure Config :=
  match argument? with
  | none => .ok c
  | some argument =>
    match Text.readUnsigned argument with
    | .ok value => .ok (c.set (setting value))
    | .error cause => .error (failure argument cause)

def Request.ofArguments (arguments : List String) : Except Failure Request := do
  let benchmark ← (Benchmark.ofName (arguments[0]?.getD "eggholder")).mapError .search
  let config ← readSetting arguments[1]? .numRuns .runCount (.forBenchmark benchmark)
  let config ← readSetting arguments[2]? .seed .seed config
  return ⟨benchmark, config⟩

/-- Runs the batch of a request.  Without a seed each run draws on its own entropy. -/
def Request.summary (r : Request) (entropy : Nat → UInt64) : Except Failure Summary := do
  let objective := Objective.ofFunction fun p => .ok (r.benchmark.value p)
  let optimizer ← (Optimizer.ofConfig objective r.benchmark.name r.config).mapError .search
  ((optimizer.runMany entropy ⟨(), #[]⟩).1).mapError .search

/-- What the program leaves behind: its exit code and its two texts. -/
structure Response where
  exitCode : UInt8
  output : String
  errors : String
deriving DecidableEq, Repr

def Response.ofOutcome : Except Failure Summary → Response
  | .ok summary => ⟨0, summary.text ++ "\n", ""⟩
  | .error failure => ⟨1, "", "Error: " ++ failure.message ++ "\n"⟩

def respond (entropy : Nat → UInt64) (arguments : List String) : Response :=
  .ofOutcome ((Request.ofArguments arguments).bind fun r => r.summary entropy)

end ParticleSwarm.Command
