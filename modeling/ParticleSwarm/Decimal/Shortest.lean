import ParticleSwarm.Decimal.Binary

/-!
# Shortest decimal numbers that read back

A decimal number reads back as a double when it lies in the interval of reals that round to it;
the ends belong to the interval when the mantissa is even.  `shortest` looks at the decimal grids
`10 ^ k` from coarse to fine, with one digit, two digits, and so on up to seventeen, which always
suffice.  On each grid only the two neighbours of the value matter: if any point of the grid lies
in the interval, so does one of them.  The first grid with a hit wins; of two hits the nearer one
is taken, and the upper one when both are equally near.
-/

namespace ParticleSwarm.Decimal

/-- The number `significand · 10 ^ exponent`. -/
structure Scaled where
  significand : Nat
  exponent : Int
deriving DecidableEq, Repr

/-- The reals that round to a double, in quarter units of its last place over a common
    denominator: `low`, the value, and `high`. -/
structure Interval where
  low : Nat
  value : Nat
  high : Nat
  denominator : Nat
  closed : Bool
deriving DecidableEq, Repr

namespace Interval

/-- The gap below a power of two is half as wide as the gap above it, except among the
    smallest numbers, where the spacing does not change. -/
def ofBinary (b : Binary) : Interval :=
  let unit := Nat.pow 2 (b.exponent - 2).toNat
  let below :=
    if b.mantissa = Binary.powerMantissa ∧ Binary.leastExponent < b.exponent then 1 else 2
  { low := (4 * b.mantissa - below) * unit
    value := 4 * b.mantissa * unit
    high := (4 * b.mantissa + 2) * unit
    denominator := .pow 2 (2 - b.exponent).toNat
    closed := b.mantissa % 2 == 0 }

def inUnitsOf (i : Interval) (k : Int) : Interval :=
  let shrink := Nat.pow 10 k.toNat
  let grow := Nat.pow 10 (-k).toNat
  { i with
    low := i.low * grow
    value := i.value * grow
    high := i.high * grow
    denominator := i.denominator * shrink }

def holds (i : Interval) (n : Nat) : Bool :=
  let scaled := n * i.denominator
  if i.closed then decide (i.low ≤ scaled ∧ scaled ≤ i.high)
  else decide (i.low < scaled ∧ scaled < i.high)

/-- The whole number of the interval that is next to its value, if one of the two neighbours
    of the value lies in it. -/
def nearest? (i : Interval) : Option Nat :=
  let down := i.value / i.denominator
  let fromDown := i.value - down * i.denominator
  let roundsUp := decide (i.denominator ≤ 2 * fromDown)
  match i.holds down, i.holds (down + 1) with
  | true, true => some (if roundsUp then down + 1 else down)
  | true, false => some down
  | false, true => some (down + 1)
  | false, false => none

end Interval

def digitCount (n : Nat) : Nat := (Nat.toDigits 10 n).length

/-- The exponent of the leading decimal digit of the positive fraction `num / den`. -/
def leadingExponent (num den : Nat) : Int :=
  if den ≤ num then digitCount (num / den) - 1 else -digitCount ((den - 1) / num)

/-- The shortest decimal number that reads back as the magnitude of `b`, nearest to it among
    those of its length. -/
def shortest (b : Binary) : Scaled :=
  if b.mantissa = 0 then ⟨0, 0⟩
  else
    let i := Interval.ofBinary b
    let top := leadingExponent i.value i.denominator
    let hit? (n : Nat) : Option Scaled :=
      let k := top - n
      ((i.inUnitsOf k).nearest?).map fun s => ⟨s, k⟩
    ((List.range 17).findSome? hit?).getD ⟨b.numerator / b.denominator, 0⟩

end ParticleSwarm.Decimal
