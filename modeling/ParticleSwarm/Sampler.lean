import ParticleSwarm.Config
import ParticleSwarm.Generator.UniformRange

/-!
# Drawing initial positions

A `Sampler` is a way of sampling made ready for given bounds.  Splitting from zero needs no
preparation; uniform sampling needs a range for each axis, and fails for the first axis that has
none.
-/

namespace ParticleSwarm

/-- A way of sampling on given bounds. -/
inductive Sampler where
  | splitFromZero (bounds : Bounds)
  | uniform (x y : UniformRange)
deriving DecidableEq, Repr

namespace Sampler

def rangeAlong (b : Bounds) (a : Axis) : Except SearchError UniformRange :=
  match UniformRange.ofEnds? (b.min.along a) (b.max.along a) with
  | some r => .ok r
  | none => .error (.invalidBounds a (b.min.along a) (b.max.along a))

def build (b : Bounds) : Sampling → Except SearchError Sampler
  | .splitFromZero => .ok (.splitFromZero b)
  | .uniform => do
    let x ← rangeAlong b .x
    let y ← rangeAlong b .y
    return .uniform x y

section Draws

variable {γ : Type} [WordSource γ]

def drawSplit (b : Bounds) (a : Axis) : StateM γ Float := do
  let u ← drawUnit
  return if ← drawCoin then u * b.max.along a else u * b.min.along a

def drawUniform (r : UniformRange) : StateM γ Float := return r.sample (← WordSource.draw)

def draw : Sampler → StateM γ Point
  | .splitFromZero b => Point.ofAxesM (drawSplit b)
  | .uniform x y => Point.ofAxesM fun
    | .x => drawUniform x
    | .y => drawUniform y

def drawMany (s : Sampler) : Nat → StateM γ (List Point)
  | 0 => return []
  | n + 1 => do
    let p ← s.draw
    let rest ← s.drawMany n
    return p :: rest

end Draws

end Sampler

end ParticleSwarm
