import ParticleSwarm.Bounds

/-!
# Test landscapes of two variables

Five classic functions for minimisation, each with the domain it is searched on and its published
minimum.  The formulas are evaluated in doubles from left to right as they stand here.
-/

namespace ParticleSwarm

/-- A classic test function. -/
inductive Benchmark where
  | booth
  | crossInTray
  | holderTable
  | mcCormick
  | eggholder
deriving DecidableEq, Repr

/-- A point and the value of a function there. -/
structure Minimum where
  point : Point
  value : Float
deriving DecidableEq, Repr

namespace Benchmark

/-- All test functions, in the order in which names are tried. -/
def all : List Benchmark := [booth, crossInTray, holderTable, mcCormick, eggholder]

theorem mem_all (b : Benchmark) : b ∈ all := by
  cases b <;> decide

def name : Benchmark → String
  | booth => "booth"
  | crossInTray => "cross-in-tray"
  | holderTable => "holder-table"
  | mcCormick => "mccormick"
  | eggholder => "eggholder"

def bounds : Benchmark → Bounds
  | booth | crossInTray | holderTable => .square (-10) 10
  | mcCormick => .rectangle (-1.5) 4 (-3) 4
  | eggholder => .square (-512) 512

/-- The published minimum, rounded as usually quoted.  Of several symmetric minimising points
    the one in the positive quadrant is given. -/
def knownMinimum : Benchmark → Minimum
  | booth => ⟨⟨1, 3⟩, 0⟩
  | crossInTray => ⟨⟨1.34941, 1.34941⟩, -2.06261⟩
  | holderTable => ⟨⟨8.05502, 9.66459⟩, -19.2085⟩
  | mcCormick => ⟨⟨-0.54719, -1.54719⟩, -1.9133⟩
  | eggholder => ⟨⟨512, 404.2319⟩, -959.6407⟩

/-! ### Formulas -/

def pi : Float := 3.141592653589793

def square (v : Float) : Float := v * v

def radius (x y : Float) : Float := (x * x + y * y).sqrt

def value : Benchmark → Point → Float
  | booth, ⟨x, y⟩ => square (x + 2 * y - 7) + square (2 * x + y - 5)
  | crossInTray, ⟨x, y⟩ =>
    let inner := (x.sin * y.sin * (100 - radius x y / pi).abs.exp).abs + 1
    (-0.0001) * inner.pow 0.1
  | holderTable, ⟨x, y⟩ => -(x.sin * y.cos * (1 - radius x y / pi).abs.exp).abs
  | mcCormick, ⟨x, y⟩ => (x + y).sin + square (x - y) - 1.5 * x + 2.5 * y + 1
  | eggholder, ⟨x, y⟩ =>
    let raised := y + 47
    (-raised) * (x / 2 + raised).abs.sqrt.sin - x * (x - raised).abs.sqrt.sin

end Benchmark

end ParticleSwarm
