import ParticleSwarm.Benchmark
import ParticleSwarm.Text.Blank

/-!
# Finding a test function by its name

A written name fits a test function when, blanks at its ends and the case of ASCII letters apart,
it is the canonical name with each hyphen written as a hyphen, an underscore or a space, or the
canonical name with all hyphens left out.
-/

namespace ParticleSwarm.Benchmark

def asHyphen (c : Char) : Char :=
  if c = '_' ∨ c = ' ' then '-' else c

/-- A written name without blanks at its ends, in lower case, with hyphens as separators. -/
def normalized (written : List Char) : List Char :=
  (Text.trimmed written).map fun c => asHyphen c.toLower

def letters (b : Benchmark) : List Char := b.name.toList

def joinedLetters (b : Benchmark) : List Char := b.letters.filter (· != '-')

def isCalled (b : Benchmark) (normal : List Char) : Bool :=
  b.letters == normal || b.joinedLetters == normal

/-- The test function a written name stands for.  The error quotes the name as it was given. -/
def ofName (written : String) : Except SearchError Benchmark :=
  match all.find? fun b => b.isCalled (normalized written.toList) with
  | some b => .ok b
  | none => .error (.unknownObjective written)

end ParticleSwarm.Benchmark
