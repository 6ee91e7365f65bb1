import ParticleSwarm.Attempt
import ParticleSwarm.Event

/-!
# Objectives

An objective answers at a point with a value or with the reason why it has none.  It may remember
what it was asked, so that the number and the order of the questions can matter: an objective is
a function of its memory as well, and gives a new memory with each answer.

A `Session` is what asking leaves behind, the memory and the log.  A `Trial` is an attempt on a
session: it asks an objective and notes events, and it fails when the objective does.
-/

namespace ParticleSwarm

/-- What an objective says about a point: its value, or why it has none. -/
abbrev Answer := Except String Float

/-- An objective with memory of type `σ`. -/
structure Objective (σ : Type) where
  answer : σ → Point → Answer × σ

namespace Objective

variable {σ : Type}

def ofFunction (f : Point → Answer) : Objective Unit := ⟨fun _ p => (f p, ())⟩

/-- The objective that also remembers the points it was asked about, in order. -/
def recorded (o : Objective σ) : Objective (σ × Array Point) where
  answer s p :=
    let reply := o.answer s.1 p
    (reply.1, reply.2, s.2.push p)

end Objective

/-! ### Sessions and trials -/

/-- The memory of an objective, and the log so far. -/
structure Session (σ : Type) where
  memory : σ
  log : Array Event := #[]
deriving DecidableEq, Repr

/-- An attempt that asks an objective and notes events. -/
abbrev Trial (σ : Type) := Attempt (Session σ)

namespace Session

variable {σ : Type}

def note (s : Session σ) (e : Event) : Session σ := { s with log := s.log.push e }

@[simp] theorem memory_note (s : Session σ) (e : Event) : (s.note e).memory = s.memory := rfl

@[simp] theorem log_note (s : Session σ) (e : Event) : (s.note e).log = s.log.push e := rfl

end Session

def Trial.note {σ : Type} (e : Event) : Trial σ Unit := modify fun s => s.note e

@[simp] theorem Trial.note_apply {σ : Type} (e : Event) (s : Session σ) :
    Trial.note e s = (.ok (), s.note e) := rfl

def Objective.cost {σ : Type} (o : Objective σ) (p : Point) : Trial σ Float := fun s =>
  let reply := o.answer s.memory p
  (reply.1.mapError .objectiveFailed, { s with memory := reply.2 })

end ParticleSwarm
