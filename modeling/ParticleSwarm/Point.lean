/-!
# Points of the plane

The search space has two axes.  A `Point` holds one double per axis and stands for a location
as well as for a velocity.  Everything that treats the axes alike is written per `Axis`, and
`Point.ofAxes` puts the two answers together again.
-/

namespace ParticleSwarm

/-- One of the two directions of the plane. -/
inductive Axis where
  | x
  | y
deriving DecidableEq, Repr

def Axis.name : Axis → String
  | .x => "x"
  | .y => "y"

/-- A location in the plane, or a velocity. -/
structure Point where
  x : Float
  y : Float
deriving DecidableEq, Repr

namespace Point

def origin : Point := ⟨0, 0⟩

def along (p : Point) : Axis → Float
  | .x => p.x
  | .y => p.y

def ofAxes (f : Axis → Float) : Point := ⟨f .x, f .y⟩

def add (p q : Point) : Point := ofAxes fun a => p.along a + q.along a

instance : Add Point := ⟨add⟩

@[simp] theorem along_ofAxes (f : Axis → Float) (a : Axis) : (ofAxes f).along a = f a := by
  cases a <;> rfl

@[simp] theorem ofAxes_along (p : Point) : ofAxes p.along = p := rfl

theorem ext_along {p q : Point} (h : ∀ a, p.along a = q.along a) : p = q := by
  have hx : p.x = q.x := h .x
  have hy : p.y = q.y := h .y
  cases p
  cases q
  simp_all

end Point

end ParticleSwarm
