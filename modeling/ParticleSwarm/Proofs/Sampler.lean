import ParticleSwarm.Proofs.Bounds.Clamping
import ParticleSwarm.Proofs.Double.Arithmetic
import ParticleSwarm.Proofs.Double.Size
import ParticleSwarm.Sampler

/-!
# Drawn numbers are numbers

A fraction that a word stands for is at most one, whatever the word.  The scale of a uniform range is
finite, because lowering it walks down from a finite bit pattern and stops at `-0.0` at the latest,
where it no longer leads beyond the upper end.  So no coordinate of a drawn position is NaN.
-/

namespace ParticleSwarm

open Double

/-! ### Fractions -/

/-- A whole number below a power of two, divided by that power. -/
theorem atMost_fraction {n : UInt64} {d : Float} {k : Nat} (hk : k ≤ 900)
    (hn : n.toNat < 2 ^ k) (hd : size d = 2 ^ k) : AtMost 1 (n.toFloat / d) := by
  have hpower : Representable (2 ^ k) := by
    have hone := representable_mul_two_pow (n := 1) (by decide) hk
    rwa [Nat.cast_one, one_mul] at hone
  have hnumber : AtMost (2 ^ k) n.toFloat := .toFloat hpower (by exact_mod_cast hn.le)
  have hone : Representable 1 := representable_natCast (n := 1) (by decide)
  refine hnumber.div hone ?_ (le_of_eq ?_)
  · rw [hd]
    positivity
  · rw [hd, one_mul]

theorem toNat_shiftRight_lt (w : UInt64) {j k : Nat} (hj : j < 64) (hjk : j + k = 64) :
    (w >>> .ofNat j).toNat < 2 ^ k := by
  have hlt : w.toNat < 2 ^ (j + k) := by
    rw [hjk]
    exact w.toNat_lt
  have hmod : (UInt64.ofNat j).toNat % 64 = j := by
    rw [UInt64.toNat_ofNat_of_lt' (hj.trans (by decide)), Nat.mod_eq_of_lt hj]
  rw [UInt64.toNat_shiftRight, hmod, Nat.shiftRight_eq_div_pow,
    Nat.div_lt_iff_lt_mul (Nat.two_pow_pos j), ← Nat.pow_add, Nat.add_comm]
  exact hlt

theorem atMost_unitInterval (w : UInt64) : AtMost 1 (unitInterval w) :=
  atMost_fraction (k := 53) (by decide) (toNat_shiftRight_lt w (j := 11) (by decide) rfl)
    (by decide +kernel)

theorem atMost_unitSpan (w : UInt64) : AtMost 3 (unitSpan w) := by
  have hfraction : AtMost 1 ((w >>> 12).toFloat / 4503599627370496) :=
    atMost_fraction (k := 52) (by decide) (toNat_shiftRight_lt w (j := 12) (by decide) rfl)
      (by decide +kernel)
  have hone : AtMost 1 (1 : Float) := by decide +kernel
  have hsum : AtMost 2 ((1 : Float) + (w >>> 12).toFloat / 4503599627370496) :=
    hone.add (representable_natCast (n := 2) (by decide)) hfraction (by norm_num)
  exact hsum.sub (representable_natCast (n := 3) (by decide)) hone (by norm_num)

theorem isFinite_unitInterval (w : UInt64) : (unitInterval w).isFinite = true :=
  (atMost_unitInterval w).isFinite

theorem isFinite_unitSpan (w : UInt64) : (unitSpan w).isFinite = true :=
  (atMost_unitSpan w).isFinite

/-! ### Ranges -/

namespace UniformRange

/-- Below an ordinary bit pattern lies an ordinary one, except at the pattern of `-0.0`. -/
theorem ordinary_of_succ {n : Nat} (hn : n + 1 < 2 ^ 64) (h : Ordinary (n + 1))
    (hne : n + 1 ≠ 2 ^ 63) : Ordinary n := by
  unfold Ordinary at h ⊢
  omega

theorem negZero_mul_largestSpan :
    Float.ofBits (.ofNat (2 ^ 63)) * largestSpan = Float.ofBits 0x8000000000000000 := by
  decide +kernel

/-- Lowering a finite scale gives a finite one.  It cannot pass `-0.0`, below whose bit pattern
    lies a NaN, since there the lower end itself is reached. -/
theorem isFinite_fitScale {low high : Float} (hle : low ≤ high) {n : Nat} (hn : n < 2 ^ 64)
    (h : Ordinary n) : (fitScale low high n).isFinite = true := by
  induction n with
  | zero =>
    change (0 : Float).isFinite = true
    decide +kernel
  | succ n ih =>
    rw [fitScale]
    split
    case isFalse => exact isFinite_ofBits hn h
    case isTrue habove =>
      refine ih (by omega) (ordinary_of_succ hn h ?_)
      intro hzero
      rw [hzero, negZero_mul_largestSpan] at habove
      obtain ⟨hlow, hhigh⟩ := isNaN_eq_false_of_le hle
      have hsum := le_of_le_of_le (negZero_add_le hlow) hle
      exact absurd habove ((not_lt_iff_le hhigh (isNaN_eq_false_of_le hsum).1).mpr hsum)

theorem ofEnds?_eq_some {low high : Float} {r : UniformRange} (h : ofEnds? low high = some r) :
    r.low = low ∧ r.scale.isFinite = true := by
  unfold ofEnds? at h
  split at h
  case isFalse => cases h
  case isTrue hle =>
    dsimp only at h
    split at h
    case isFalse => cases h
    case isTrue hfinite =>
      cases h
      have hbits := UInt64.toNat_lt ((high - low) / largestSpan).toBits
      exact ⟨rfl, isFinite_fitScale hle hbits (isFinite_iff_ordinary.mp hfinite)⟩

/-- Span and scale are finite, so their product is a number, and the lower end cannot spoil the
    sum. -/
theorem isNaN_sample {r : UniformRange} (hlow : r.low.isFinite = true)
    (hscale : r.scale.isFinite = true) (w : UInt64) : (r.sample w).isNaN = false := by
  have hproduct := isNaN_mul_of_isFinite (isFinite_unitSpan w) hscale
  exact isNaN_add_of_isFinite_right hproduct hlow

end UniformRange

/-! ### Drawn positions -/

namespace Sampler

variable {γ : Type} [WordSource γ] {b : Bounds} {sampler : Sampler}

theorem rangeAlong_eq_ok {a : Axis} {r : UniformRange} (h : rangeAlong b a = .ok r) :
    UniformRange.ofEnds? (b.min.along a) (b.max.along a) = some r := by
  unfold rangeAlong at h
  split at h
  case h_1 r' hr =>
    cases h
    exact hr
  case h_2 => cases h

theorem isNaN_drawSplit (hb : b.Good) (a : Axis) (g : γ) : (drawSplit b a g).1.isNaN = false := by
  have hunit := isFinite_unitInterval (WordSource.word 0 g)
  change (if coin _ then _ * b.max.along a else _ * b.min.along a : Float).isNaN = false
  split
  case isTrue => exact isNaN_mul_of_isFinite hunit (hb.isFinite_max a)
  case isFalse => exact isNaN_mul_of_isFinite hunit (hb.isFinite_min a)

theorem isNaN_drawUniform (hb : b.Good) {a : Axis} {r : UniformRange} (h : rangeAlong b a = .ok r)
    (g : γ) : (drawUniform r g).1.isNaN = false := by
  obtain ⟨hlow, hscale⟩ := UniformRange.ofEnds?_eq_some (rangeAlong_eq_ok h)
  refine UniformRange.isNaN_sample ?_ hscale _
  rw [hlow]
  exact hb.isFinite_min a

/-- A drawn position is made of numbers, whichever way it is drawn. -/
theorem isNumber_draw (hb : b.Good) {way : Sampling} (h : build b way = .ok sampler) (g : γ) :
    (sampler.draw g).1.IsNumber := by
  cases way with
  | splitFromZero =>
    cases h
    rintro (_ | _)
    · exact isNaN_drawSplit hb .x g
    · exact isNaN_drawSplit hb .y _
  | uniform =>
    obtain ⟨x, hx, h⟩ := Attempt.outcome_bind_eq_ok.mp h
    obtain ⟨y, hy, h⟩ := Attempt.outcome_bind_eq_ok.mp h
    cases h
    rintro (_ | _)
    · exact isNaN_drawUniform hb hx g
    · exact isNaN_drawUniform hb hy _

theorem isNumber_of_mem_drawMany (hdraw : ∀ g : γ, (sampler.draw g).1.IsNumber) (n : Nat) (g : γ)
    {p : Point} (hp : p ∈ (sampler.drawMany n g).1) : p.IsNumber := by
  induction n generalizing g with
  | zero => cases hp
  | succ n ih =>
    change p ∈ (sampler.draw g).1 :: (sampler.drawMany n (sampler.draw g).2).1 at hp
    rcases List.mem_cons.mp hp with rfl | hp
    · exact hdraw g
    · exact ih _ hp

end Sampler

end ParticleSwarm
