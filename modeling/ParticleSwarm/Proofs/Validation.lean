import ParticleSwarm.Config
import ParticleSwarm.Proofs.Attempt

/-!
# What validation accepts

A configuration is accepted exactly when the swarm is not empty, the coefficients are finite, and
the two ends of each axis are finite and in order.
-/

namespace ParticleSwarm

namespace Bounds

variable {b : Bounds}

/-- The ends of every axis are finite and in order. -/
structure Good (b : Bounds) : Prop where
  isFinite_min : ∀ a, (b.min.along a).isFinite = true
  isFinite_max : ∀ a, (b.max.along a).isFinite = true
  not_min_gt_max : ∀ a, ¬ b.min.along a > b.max.along a

theorem validateAlong_eq_ok_iff {a : Axis} :
    b.validateAlong a = .ok () ↔ (b.min.along a).isFinite ∧ (b.max.along a).isFinite ∧
      ¬ b.min.along a > b.max.along a := by
  unfold validateAlong
  split
  case isTrue h => exact ⟨fun _ => h, fun _ => rfl⟩
  case isFalse h =>
    constructor
    · intro hok
      cases hok
    · intro hgood
      exact absurd hgood h

/-- Validation of bounds tests the ends of both axes, and stops at the first bad one. -/
theorem validate_eq_ok_iff : b.validate = .ok () ↔ b.Good := by
  unfold validate
  rw [Attempt.outcome_bind_eq_ok]
  constructor
  · rintro ⟨⟨⟩, hx, hy⟩
    rw [validateAlong_eq_ok_iff] at hx hy
    constructor <;> rintro (_ | _)
    · exact hx.1
    · exact hy.1
    · exact hx.2.1
    · exact hy.2.1
    · exact hx.2.2
    · exact hy.2.2
  · intro h
    have halong (a : Axis) : b.validateAlong a = .ok () :=
      validateAlong_eq_ok_iff.mpr ⟨h.isFinite_min a, h.isFinite_max a, h.not_min_gt_max a⟩
    exact ⟨(), halong .x, halong .y⟩

end Bounds

namespace Coefficients

variable {c : Coefficients}

theorem validateWeight_eq_ok_iff {w : Weight} :
    c.validateWeight w = .ok () ↔ (c.value w).isFinite = true := by
  unfold validateWeight
  split
  case isTrue h => exact ⟨fun _ => h, fun _ => rfl⟩
  case isFalse h =>
    constructor
    · intro hok
      cases hok
    · intro hfinite
      exact absurd hfinite h

theorem validate_eq_ok_iff :
    c.validate = .ok () ↔ ∀ w, (c.value w).isFinite = true := by
  unfold validate
  rw [Attempt.outcome_bind_eq_ok]
  constructor
  · rintro ⟨⟨⟩, hinertia, h⟩
    obtain ⟨⟨⟩, hcognitive, hsocial⟩ := Attempt.outcome_bind_eq_ok.mp h
    rintro (_ | _ | _)
    · exact validateWeight_eq_ok_iff.mp hinertia
    · exact validateWeight_eq_ok_iff.mp hcognitive
    · exact validateWeight_eq_ok_iff.mp hsocial
  · intro h
    have hweight (w : Weight) : c.validateWeight w = .ok () :=
      validateWeight_eq_ok_iff.mpr (h w)
    refine ⟨(), hweight .inertia, ?_⟩
    exact Attempt.outcome_bind_eq_ok.mpr ⟨(), hweight .cognitive, hweight .social⟩

end Coefficients

/-- **A configuration is accepted** exactly when the swarm is not empty, the coefficients are
    finite and the bounds are good. -/
theorem Config.validate_eq_ok_iff {c : Config} :
    c.validate = .ok () ↔
      c.populationSize ≠ 0 ∧ (∀ w, (c.coefficients.value w).isFinite = true) ∧ c.bounds.Good := by
  unfold validate
  rw [← Coefficients.validate_eq_ok_iff, ← Bounds.validate_eq_ok_iff]
  by_cases h : c.populationSize = 0
  · rw [if_pos h]
    constructor
    · intro hok
      cases hok
    · rintro ⟨hne, -⟩
      exact absurd h hne
  · rw [if_neg h]
    change (c.coefficients.validate >>= fun _ => c.bounds.validate) = .ok () ↔ _
    rw [Attempt.outcome_bind_eq_ok]
    constructor
    · rintro ⟨⟨⟩, hcoefficients, hbounds⟩
      exact ⟨h, hcoefficients, hbounds⟩
    · rintro ⟨-, hcoefficients, hbounds⟩
      exact ⟨(), hcoefficients, hbounds⟩

end ParticleSwarm
