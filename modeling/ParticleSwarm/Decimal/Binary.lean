/-!
# Finite doubles, read exactly

A finite double is a sign and a magnitude `mantissa · 2 ^ exponent` with natural mantissa.
The magnitude is also given as a fraction of naturals, so that every later question about its
decimal digits is answered in exact arithmetic.
-/

namespace ParticleSwarm.Decimal

/-- The exact value of a finite double. -/
structure Binary where
  negative : Bool
  mantissa : Nat
  exponent : Int
deriving DecidableEq, Repr

namespace Binary

def leastExponent : Int := -1074

/-- The mantissa of a power of two that is not subnormal. -/
def powerMantissa : Nat := .pow 2 52

/-- Reads the three fields of the bit pattern.  An exponent field of zero stands for a
    subnormal number; otherwise the mantissa has a leading one that is not stored. -/
def ofFloat (v : Float) : Binary :=
  let bits := v.toBits.toNat
  let field := bits / powerMantissa % 2048
  let fraction := bits % powerMantissa
  { negative := bits / (2048 * powerMantissa) == 1
    mantissa := if field = 0 then fraction else powerMantissa + fraction
    exponent := if field = 0 then leastExponent else leastExponent + (field - 1 : Nat) }

def numerator (b : Binary) : Nat := b.mantissa * .pow 2 b.exponent.toNat

def denominator (b : Binary) : Nat := .pow 2 (-b.exponent).toNat

theorem denominator_pos (b : Binary) : 0 < b.denominator := Nat.two_pow_pos _

end Binary

end ParticleSwarm.Decimal
