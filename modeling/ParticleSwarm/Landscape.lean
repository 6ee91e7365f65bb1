import ParticleSwarm.Benchmark
import ParticleSwarm.Objective

/-!
# Objectives described as data

A `Landscape` is an objective put together from test functions, simple formulas, and two ways of
failing: beyond a limit of the first coordinate, and after a number of calls.  A landscape that
counts calls carries the count in itself, so it is its own memory.
-/

namespace ParticleSwarm

/-- An objective described as data. -/
inductive Landscape where
  | benchmark (b : Benchmark)
  | sphere (centre : Point)
  | linear (slope : Point) (offset : Float)
  | constant (value : Float)
  /-- The squared distance from the origin, but a fixed value beyond a limit of `x`. -/
  | cliff (limit value : Float)
  /-- A plane through zero, but a fixed value at the origin itself. -/
  | hole (slope : Point) (value : Float)
  /-- Fails beyond a limit of `x`. -/
  | failAbove (limit : Float) (inner : Landscape)
  /-- Fails when `limit` calls have been answered; `answered` of them are over. -/
  | failAfter (limit answered : UInt64) (inner : Landscape)
deriving DecidableEq, Repr

namespace Landscape

def answer : Landscape → Point → Answer × Landscape
  | benchmark b, p => (.ok (b.value p), benchmark b)
  | sphere c, p =>
    (.ok ((p.x - c.x) * (p.x - c.x) + (p.y - c.y) * (p.y - c.y)), sphere c)
  | linear m offset, p => (.ok (m.x * p.x + m.y * p.y + offset), linear m offset)
  | constant value, _ => (.ok value, constant value)
  | cliff limit value, p =>
    (.ok (if p.x > limit then value else p.x * p.x + p.y * p.y), cliff limit value)
  | hole m value, p =>
    (.ok (if p.x == 0 && p.y == 0 then value else m.x * p.x + m.y * p.y), hole m value)
  | failAbove limit inner, p =>
    if p.x > limit then
      (.error "objective undefined beyond the limit", failAbove limit inner)
    else
      let (answer, inner) := inner.answer p
      (answer, failAbove limit inner)
  | failAfter limit answered inner, p =>
    if answered < limit then
      let (answer, inner) := inner.answer p
      (answer, failAfter limit (answered + 1) inner)
    else
      (.error ("objective unavailable after " ++ toString limit.toNat ++ " calls"),
        failAfter limit answered inner)

def objective : Objective Landscape := ⟨answer⟩

def defaultName : Landscape → String
  | benchmark _ => "Benchmark"
  | _ => "custom"

end Landscape

end ParticleSwarm
