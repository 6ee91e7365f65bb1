import ParticleSwarm.Command

/-!
# The program

Hands the arguments and the entropy of the runs to `Command.respond`, and prints what comes back.
The entropy of a run is a random number, drawn once, plus the number of the run.
-/

def main (arguments : List String) : IO UInt32 := do
  let bytes ← IO.getRandomBytes 8
  let base : UInt64 := bytes.foldl (fun s byte => (s <<< 8) ||| byte.toUInt64) 0
  let response := ParticleSwarm.Command.respond (fun run => base + .ofNat run) arguments
  (← IO.getStdout).putStr response.output
  (← IO.getStderr).putStr response.errors
  return response.exitCode.toUInt32
