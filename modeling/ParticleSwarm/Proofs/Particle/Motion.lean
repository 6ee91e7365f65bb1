import ParticleSwarm.Particle
import ParticleSwarm.Proofs.Sampler

/-!
# When a velocity is a number

A velocity is a sum of three products, and its factors may be of any size.  With finite
coefficients and a confined particle it fails to be a number in two ways only.  Either a difference
overflows and is weighted by zero, or products or partial sums overflow to infinities of different
sign.  These are the clashes, and a particle has a NaN coordinate after a move exactly when its
velocity clashes along that axis.  Coefficients and coordinates that leave room for all sums and
products on the way give a velocity with a bound, and nothing clashes.
-/

namespace ParticleSwarm

open Double

/-- What lies between the ends of an axis, or is zero, has their bound. -/
theorem Bounds.Spans.atMost {b : Bounds} {v : Point} {q : ℚ} (hv : b.Spans v) {a : Axis}
    (hmin : AtMost q (b.min.along a)) (hmax : AtMost q (b.max.along a)) :
    AtMost q (v.along a) := by
  rcases hv a with hzero | hinside
  · rw [hzero]
    exact hmin.nonneg
  · obtain ⟨hlow, hhigh⟩ := Bounds.containsAlong_iff.mp hinside
    exact hmin.of_le_of_le hmax hlow hhigh

namespace Particle

/-! ### Particles made of numbers -/

/-- Position and velocity are made of numbers. -/
structure Healthy (b : Bounds) (p : Particle) : Prop where
  position : p.position.IsNumber
  velocity : p.velocity.IsNumber
  personalBest : b.Spans p.personalBest

/-- The position lies in the rectangle, and the velocity is damped. -/
structure Confined (b : Bounds) (p : Particle) : Prop where
  position : b.contains p.position = true
  velocity : b.Spans p.velocity
  personalBest : b.Spans p.personalBest

variable {b : Bounds} {p : Particle}

theorem Healthy.confine (hb : b.Good) (h : p.Healthy b) : (p.confine b).Confined b :=
  ⟨hb.contains_clamp_iff.mpr h.position, hb.spans_damp h.velocity, h.personalBest⟩

theorem Confined.healthy (hb : b.Good) (h : p.Confined b) : p.Healthy b :=
  ⟨(hb.isFinite_of_contains h.position).isNumber, (hb.isFinite_of_spans h.velocity).isNumber,
    h.personalBest⟩

theorem Confined.rememberPosition (h : p.Confined b) :
    { p with personalBest := p.position : Particle }.Confined b :=
  ⟨h.position, h.velocity, Bounds.spans_of_contains h.position⟩

/-! ### Clashes -/

/-- The three parts of a velocity along an axis do not add up to a number: a difference overflows
    and is weighted by zero, or infinities of different sign are added. -/
def Clashes (c : Coefficients) (globalBest : Point) (p : Particle) (a : Axis) (r₁ r₂ : Float) :
    Prop :=
  let inertia := c.inertia * p.velocity.along a
  let toOwn := p.personalBest.along a - p.position.along a
  let toShared := globalBest.along a - p.position.along a
  Void (c.cognitive * r₁) toOwn ∨ Opposed inertia (c.cognitive * r₁ * toOwn) ∨
    Void (c.social * r₂) toShared ∨
    Opposed (inertia + c.cognitive * r₁ * toOwn) (c.social * r₂ * toShared)

variable {c : Coefficients} {globalBest : Point} {r₁ r₂ : Float}

/-- For a confined particle the clashes are all the ways in which a velocity can be NaN. -/
theorem isNaN_pull_iff (hc : ∀ w, (c.value w).isFinite = true) (hb : b.Good) (h : p.Confined b)
    (hglobal : b.Spans globalBest) (hr₁ : r₁.isFinite = true) (hr₂ : r₂.isFinite = true)
    (a : Axis) :
    (p.pull c globalBest a r₁ r₂).isNaN = true ↔ p.Clashes c globalBest a r₁ r₂ := by
  have hposition := hb.isFinite_of_contains h.position a
  have hfinite : c.inertia.isFinite = true ∧ c.cognitive.isFinite = true ∧
      c.social.isFinite = true := ⟨hc .inertia, hc .cognitive, hc .social⟩
  obtain ⟨hw, hc₁, hc₂⟩ := hfinite
  have hinertia := isNaN_mul_of_isFinite hw (hb.isFinite_of_spans h.velocity a)
  have hown := isNaN_sub_of_isFinite (hb.isFinite_of_spans h.personalBest a) hposition
  have hshared := isNaN_sub_of_isFinite (hb.isFinite_of_spans hglobal a) hposition
  have htoOwn := isNaN_mul_iff_void (isNaN_mul_of_isFinite hc₁ hr₁) hown
  have htoShared := isNaN_mul_iff_void (isNaN_mul_of_isFinite hc₂ hr₂) hshared
  rw [pull, isNaN_add_iff, isNaN_add_iff, hinertia, htoOwn, htoShared, Clashes]
  simp only [Bool.false_eq_true, false_or]
  exact or_assoc

/-! ### The size of a velocity -/

/-- The bounds that a velocity passes through on its way are doubles, when the inertia is at most
    `i`, the weights at most `w` and all coordinates at most `q`. -/
structure Leeway (i w q : ℚ) : Prop where
  weight : Representable w
  difference : Representable (2 * q)
  part : Representable (2 * w * q)
  damped : Representable (i * q)
  own : Representable (i * q + 2 * w * q)
  whole : Representable (i * q + 4 * w * q)

/-- A damped velocity of at most `i * q`, and two parts of at most `2 * w * q` each. -/
theorem Leeway.atMost_pull {i w q : ℚ} (hroom : Leeway i w q) {a : Axis}
    (hinertia : AtMost i c.inertia) (hcognitive : AtMost w c.cognitive)
    (hsocial : AtMost w c.social) (hposition : AtMost q (p.position.along a))
    (hvelocity : AtMost q (p.velocity.along a)) (hbest : AtMost q (p.personalBest.along a))
    (hglobal : AtMost q (globalBest.along a)) (hr₁ : AtMost 1 r₁) (hr₂ : AtMost 1 r₂) :
    AtMost (i * q + 4 * w * q) (p.pull c globalBest a r₁ r₂) := by
  have hpart {v r z : Float} (hv : AtMost w v) (hr : AtMost 1 r) (hz : AtMost q z) :
      AtMost (2 * w * q) (v * r * (z - p.position.along a)) := by
    have hweight : AtMost w (v * r) := hv.mul hroom.weight hr (by linarith)
    have hdifference : AtMost (2 * q) (z - p.position.along a) :=
      hz.sub hroom.difference hposition (by linarith)
    exact hweight.mul hroom.part hdifference (by linarith)
  have hdamped : AtMost (i * q) (c.inertia * p.velocity.along a) :=
    hinertia.mul hroom.damped hvelocity le_rfl
  have hown : AtMost (i * q + 2 * w * q) _ :=
    hdamped.add hroom.own (hpart hcognitive hr₁ hbest) le_rfl
  exact hown.add hroom.whole (hpart hsocial hr₂ hglobal) (by linarith)

theorem leeway_two_pow {k : Nat} (hk : 2 * k ≤ 900) : Leeway (2 ^ k) (2 ^ k) (2 ^ k) := by
  have hmultiple {n j : Nat} {q : ℚ} (hn : n ≤ 5) (hj : j ≤ 2 * k) (hq : n * 2 ^ j = q) :
      Representable q :=
    hq ▸ representable_mul_two_pow (hn.trans_lt (by decide)) (hj.trans hk)
  exact {
    weight := hmultiple (n := 1) (j := k) (by decide) (by omega) (by ring)
    difference := hmultiple (n := 2) (j := k) (by decide) (by omega) (by ring)
    part := hmultiple (n := 2) (j := 2 * k) (by decide) le_rfl (by ring)
    damped := hmultiple (n := 1) (j := 2 * k) (by decide) le_rfl (by ring)
    own := hmultiple (n := 3) (j := 2 * k) (by decide) le_rfl (by ring)
    whole := hmultiple (n := 5) (j := 2 * k) (by decide) le_rfl (by ring) }

/-! ### Moves -/

section Words

variable {γ : Type} [WordSource γ]

def firstWord : Axis → Nat
  | .x => 0
  | .y => 2

def ClashesOn (c : Coefficients) (globalBest : Point) (p : Particle) (g : γ) : Prop :=
  ∃ a, p.Clashes c globalBest a (unitInterval (WordSource.word (firstWord a) g))
    (unitInterval (WordSource.word (firstWord a + 1) g))

theorem velocity_accelerate (c : Coefficients) (globalBest : Point) (p : Particle) (g : γ)
    (a : Axis) :
    (p.accelerate c globalBest g).1.velocity.along a =
      p.pull c globalBest a (unitInterval (WordSource.word (firstWord a) g))
        (unitInterval (WordSource.word (firstWord a + 1) g)) := by
  rw [accelerate_apply]
  cases a <;> rfl

def move (c : Coefficients) (globalBest : Point) (g : γ) (p : Particle) : Particle :=
  (p.accelerate c globalBest g).1.advance

section Confined

variable (hc : ∀ w, (c.value w).isFinite = true) (hb : b.Good) (h : p.Confined b)
  (hglobal : b.Spans globalBest) (g : γ)
include hc hb h hglobal

theorem Confined.isNumber_velocity_move_iff :
    (p.move c globalBest g).velocity.IsNumber ↔ ¬ p.ClashesOn c globalBest g := by
  have haxis (a : Axis) := isNaN_pull_iff hc hb h hglobal
    (isFinite_unitInterval (WordSource.word (firstWord a) g))
    (isFinite_unitInterval (WordSource.word (firstWord a + 1) g)) a
  rw [ClashesOn, not_exists]
  refine forall_congr' fun a => ?_
  rw [← haxis a, ← velocity_accelerate, Bool.not_eq_true]
  exact Iff.rfl

/-- Nothing clashes when the coefficients and the ends of the axes leave room for a velocity. -/
theorem Confined.not_clashesOn_of_leeway {w q : ℚ} (hroom : Leeway w w q)
    (hmin : ∀ a, AtMost q (b.min.along a)) (hmax : ∀ a, AtMost q (b.max.along a))
    (hcoefficients : ∀ kind, AtMost w (c.value kind)) : ¬ p.ClashesOn c globalBest g := by
  have hspans {v : Point} (hv : b.Spans v) (a : Axis) : AtMost q (v.along a) :=
    hv.atMost (hmin a) (hmax a)
  rw [← h.isNumber_velocity_move_iff hc hb hglobal g]
  intro a
  have hpull := hroom.atMost_pull (a := a) (hcoefficients .inertia) (hcoefficients .cognitive)
    (hcoefficients .social) (hspans (Bounds.spans_of_contains h.position) a)
    (hspans h.velocity a) (hspans h.personalBest a) (hspans hglobal a)
    (atMost_unitInterval (WordSource.word (firstWord a) g))
    (atMost_unitInterval (WordSource.word (firstWord a + 1) g))
  rw [← velocity_accelerate] at hpull
  exact isNaN_eq_false_of_isFinite hpull.isFinite

/-- A confined particle has a position made of numbers after a move unless it clashes. -/
theorem Confined.isNumber_position_move_iff :
    (p.move c globalBest g).position.IsNumber ↔ ¬ p.ClashesOn c globalBest g := by
  rw [← h.isNumber_velocity_move_iff hc hb hglobal g]
  refine forall_congr' fun a => ?_
  have hfinite := hb.isFinite_of_contains h.position a
  have hsum : (p.move c globalBest g).position.along a =
      p.position.along a + (p.move c globalBest g).velocity.along a := Point.along_ofAxes _ a
  rw [hsum, isNaN_add_eq_of_isFinite hfinite]

/-- Without a clash a confined particle may move: the next clamping confines it again. -/
theorem Confined.healthy_move (hclash : ¬ p.ClashesOn c globalBest g) :
    (p.move c globalBest g).Healthy b where
  position := (h.isNumber_position_move_iff hc hb hglobal g).mpr hclash
  velocity := (h.isNumber_velocity_move_iff hc hb hglobal g).mpr hclash
  personalBest := h.personalBest

/-- Clamping leaves a particle out of bounds that has clashed. -/
theorem Confined.not_contains_move (hclash : p.ClashesOn c globalBest g) :
    b.contains ((p.move c globalBest g).confine b).position = false := by
  rw [← Bool.not_eq_true]
  intro hcontains
  have hnumber := hb.contains_clamp_iff.mp hcontains
  exact (h.isNumber_position_move_iff hc hb hglobal g).mp hnumber hclash

end Confined

end Words

end Particle

end ParticleSwarm
