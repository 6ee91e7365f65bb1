import ParticleSwarm.Decimal.Shortest

/-!
# Laying out a decimal number

`Style.render` writes the shortest digits of a double.  What formats differ in is a `Style`:
for which leading exponents the number is written out positionally, and whether a whole number
keeps a `.0`.  `fixedPlaces` writes a given number of places instead, rounding the exact value
with ties to the even neighbour.  Both write a minus sign whenever the sign bit is set, also on
zero, and spell the values that are no numbers `NaN`, `inf` and `-inf`.
-/

namespace ParticleSwarm.Decimal

/-! ### Digits and the point -/

/-- Decimal digits `d₁ d₂ …` and the place of the point: the number `0.d₁d₂… · 10 ^ point`. -/
structure Figures where
  digits : List Char
  point : Int
deriving DecidableEq, Repr

/-- The figures of a number, without zeros at the end.  Zero has no digits. -/
def Scaled.figures (s : Scaled) : Figures :=
  if s.significand = 0 then ⟨[], 1⟩
  else
    let all := Nat.toDigits 10 s.significand
    ⟨(all.reverse.dropWhile (· == '0')).reverse, all.length + s.exponent⟩

namespace Figures

def whole (f : Figures) : List Char :=
  if f.point ≤ 0 then ['0']
  else (f.digits.take f.point.toNat).rightpad f.point.toNat '0'

def fraction (f : Figures) : List Char :=
  List.replicate (-f.point).toNat '0' ++ f.digits.drop f.point.toNat

/-- The number written out, with `.0` behind a whole number if asked for. -/
def positional (f : Figures) (keepPoint : Bool) : List Char :=
  match f.fraction with
  | [] => f.whole ++ if keepPoint then ['.', '0'] else []
  | rest => f.whole ++ '.' :: rest

/-- One digit, the others behind a point, and the exponent behind an `e`. -/
def scientific (f : Figures) : List Char :=
  let mantissa :=
    match f.digits with
    | [] => ['0']
    | [d] => [d]
    | d :: rest => d :: '.' :: rest
  mantissa ++ 'e' :: (toString (f.point - 1)).toList

end Figures

/-! ### Shortest digits -/

/-- How the shortest digits of a number are laid out. -/
structure Style where
  /-- Whether a whole number is followed by `.0`. -/
  keepPoint : Bool
  /-- Whether a number whose leading digit has this exponent is written out. -/
  writesOut : Int → Bool

def signed (v : Float) (magnitude : Binary → List Char) : String :=
  if v.isNaN then "NaN"
  else
    let b := Binary.ofFloat v
    let body := if v.isFinite then magnitude b else ['i', 'n', 'f']
    String.ofList (if b.negative then '-' :: body else body)

def Style.render (s : Style) (v : Float) : String :=
  signed v fun b =>
    let f := (shortest b).figures
    if s.writesOut (f.point - 1) then f.positional s.keepPoint else f.scientific

/-! ### A fixed number of places -/

/-- The quotient rounded to the nearest whole number, a tie to the even one. -/
def divHalfEven (num den : Nat) : Nat :=
  let down := num / den
  let rest := 2 * (num % den)
  if rest < den ∨ (rest = den ∧ down % 2 = 0) then down else down + 1

def fixedPlaces (places : Nat) (v : Float) : String :=
  signed v fun b =>
    let scale := Nat.pow 10 places
    let units := divHalfEven (b.numerator * scale) b.denominator
    let digits := Nat.toDigits 10 (units / scale)
    let behind := (Nat.toDigits 10 (units % scale)).leftpad places '0'
    if places = 0 then digits else digits ++ '.' :: behind

end ParticleSwarm.Decimal
