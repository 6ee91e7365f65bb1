import ParticleSwarm.Particle
import ParticleSwarm.Proofs.Bounds.Clamping

/-!
# Clamping is a projection

On good bounds, clamping takes a coordinate to the number of its axis that is nearest to it.  Nearest
is said by the order alone: the clamped coordinate lies between the coordinate and every number of
the axis, so it can be an infinity as well.  A velocity component is kept or set to zero.  The axes
have nothing to do with each other, and what is not changed at all is exactly what the rectangle
contains.
-/

namespace ParticleSwarm

def Double.Between (u v w : Float) : Prop := u ≤ v ∧ v ≤ w ∨ w ≤ v ∧ v ≤ u

namespace Bounds

variable {b b' : Bounds} {a : Axis} {v w : Float} {p : Point}

/-! ### Clamped coordinates -/

/-- `x'` is the number of the axis that is nearest to `x`, or a NaN like `x` itself. -/
structure Nearest (b : Bounds) (a : Axis) (x x' : Float) : Prop where
  isNaN_iff : x'.isNaN = true ↔ x.isNaN = true
  containsAlong : x.isNaN = false → b.containsAlong a x' = true
  eq_of_containsAlong : b.containsAlong a x = true → x' = x
  eq_end : x.isNaN = false → b.containsAlong a x = false →
    x < b.min.along a ∧ x' = b.min.along a ∨ x > b.max.along a ∧ x' = b.max.along a
  between : x.isNaN = false → ∀ w, b.containsAlong a w = true → Double.Between x x' w

/-- What is a number and not on the axis lies beyond one of its ends. -/
theorem Good.lt_min_or_gt_max (hb : b.Good) (hv : v.isNaN = false)
    (hout : b.containsAlong a v = false) : v < b.min.along a ∨ v > b.max.along a := by
  have hmin := Double.isNaN_eq_false_of_isFinite (hb.isFinite_min a)
  have hmax := Double.isNaN_eq_false_of_isFinite (hb.isFinite_max a)
  by_contra hinside
  rw [not_or, Double.not_lt_iff_le hv hmin, gt_iff_lt, Double.not_lt_iff_le hmax hv,
    ← containsAlong_iff] at hinside
  simp [hinside] at hout

theorem clampAlong_of_gt_max (h : v > b.max.along a) : b.clampAlong a v = b.max.along a :=
  if_pos h

theorem Good.clampAlong_of_lt_min (hb : b.Good) (h : v < b.min.along a) :
    b.clampAlong a v = b.min.along a := by
  obtain ⟨hv, -⟩ := Double.isNaN_eq_false_of_lt h
  have hmax := Double.isNaN_eq_false_of_isFinite (hb.isFinite_max a)
  have hle := Double.le_of_lt (Double.lt_of_lt_of_le h (hb.min_le_max a))
  rw [clampAlong, if_neg ((Double.not_lt_iff_le hmax hv).mpr hle), if_pos h]

theorem Good.between_clampAlong (hb : b.Good) (hv : v.isNaN = false)
    (hw : b.containsAlong a w = true) : Double.Between v (b.clampAlong a v) w := by
  obtain ⟨hlow, hhigh⟩ := containsAlong_iff.mp hw
  by_cases hinside : b.containsAlong a v = true
  · have hvw := Double.isNaN_eq_false_of_le hlow
    rw [clampAlong_of_containsAlong hinside]
    by_cases hle : v ≤ w
    · exact Or.inl ⟨Double.le_self hv, hle⟩
    · have hlt : w < v := by
        by_contra hnot
        exact hle ((Double.not_lt_iff_le hvw.2 hv).mp hnot)
      exact Or.inr ⟨Double.le_of_lt hlt, Double.le_self hv⟩
  · rcases hb.lt_min_or_gt_max hv (Bool.eq_false_iff.mpr hinside) with hbelow | habove
    · rw [hb.clampAlong_of_lt_min hbelow]
      exact Or.inl ⟨Double.le_of_lt hbelow, hlow⟩
    · rw [clampAlong_of_gt_max habove]
      exact Or.inr ⟨hhigh, Double.le_of_lt habove⟩

/-- Each of the three ways that clamping may go leads to the nearest number of the axis. -/
theorem Good.nearest_clampAlong (hb : b.Good) (a : Axis) (v : Float) :
    b.Nearest a v (b.clampAlong a v) where
  isNaN_iff := by
    cases hnan : v.isNaN with
    | true => rw [clampAlong_of_isNaN hnan, hnan]
    | false => rw [isNaN_of_containsAlong (hb.containsAlong_clampAlong a hnan)]
  containsAlong := hb.containsAlong_clampAlong a
  eq_of_containsAlong := clampAlong_of_containsAlong
  eq_end := by
    intro hv hout
    rcases hb.lt_min_or_gt_max hv hout with hbelow | habove
    · exact Or.inl ⟨hbelow, hb.clampAlong_of_lt_min hbelow⟩
    · exact Or.inr ⟨habove, clampAlong_of_gt_max habove⟩
  between := fun hv _ hw => hb.between_clampAlong hv hw

/-- A point that clamping leaves as it is lies in the rectangle, if its coordinates are numbers. -/
theorem Good.contains_iff_clamp_eq (hb : b.Good) :
    b.contains p = true ↔ p.IsNumber ∧ b.clamp p = p := by
  constructor
  · intro h
    refine ⟨(hb.isFinite_of_contains h).isNumber, Point.ext_along fun a => ?_⟩
    rw [clamp, Point.along_ofAxes, clampAlong_of_containsAlong (contains_iff.mp h a)]
  · rintro ⟨hnumber, hclamp⟩
    rw [← hclamp]
    exact hb.contains_clamp_iff.mpr hnumber

/-! ### Damped components -/

/-- `v'` is `v`, or zero if `v` is a number that is not on the axis. -/
structure Damped (b : Bounds) (a : Axis) (v v' : Float) : Prop where
  eq_of_isNaN : v.isNaN = true → v' = v
  eq_of_containsAlong : b.containsAlong a v = true → v' = v
  eq_zero : v.isNaN = false → b.containsAlong a v = false → v' = 0

theorem Good.damped_dampAlong (hb : b.Good) (a : Axis) (v : Float) :
    b.Damped a v (b.dampAlong a v) where
  eq_of_isNaN := by
    intro hnan
    refine if_neg ?_
    rintro (h | h)
    · exact absurd hnan (Bool.eq_false_iff.mp (Double.isNaN_eq_false_of_lt h).2)
    · exact absurd hnan (Bool.eq_false_iff.mp (Double.isNaN_eq_false_of_lt h).1)
  eq_of_containsAlong := by
    intro hinside
    obtain ⟨hlow, hhigh⟩ := containsAlong_iff.mp hinside
    obtain ⟨hmin, hv⟩ := Double.isNaN_eq_false_of_le hlow
    obtain ⟨-, hmax⟩ := Double.isNaN_eq_false_of_le hhigh
    refine if_neg ?_
    rintro (h | h)
    · exact (Double.not_lt_iff_le hmax hv).mpr hhigh h
    · exact (Double.not_lt_iff_le hv hmin).mpr hlow h
  eq_zero := by
    intro hv hout
    exact if_pos (hb.lt_min_or_gt_max hv hout).symm

/-! ### Confined particles -/

def SameEnds (b b' : Bounds) (a : Axis) : Prop :=
  b'.min.along a = b.min.along a ∧ b'.max.along a = b.max.along a

theorem SameEnds.clampAlong_eq (h : b.SameEnds b' a) (v : Float) :
    b'.clampAlong a v = b.clampAlong a v := by
  simp only [clampAlong, h.1, h.2]

theorem SameEnds.dampAlong_eq (h : b.SameEnds b' a) (v : Float) :
    b'.dampAlong a v = b.dampAlong a v := by
  simp only [dampAlong, h.1, h.2]

end Bounds

namespace Particle

open Bounds

variable {b : Bounds}

theorem confine_confine (hb : b.Good) (p : Particle) :
    (p.confine b).confine b = p.confine b := by
  simp [confine, hb.clamp_clamp, Bounds.damp_damp]

/-- **Confining a particle is a projection.**  On accepted bounds, each coordinate of the position
    goes to the nearest number of its axis, and stays NaN if it is one; each component of the
    velocity is kept, or set to zero if it is a number that is not on its axis.  Confining a second
    time changes nothing.  What becomes of a coordinate or of a component depends only on itself and
    on the ends of its axis.  The rectangle contains the position exactly when its coordinates are
    numbers and none of them is changed. -/
theorem confine_is_projection (hvalid : b.validate = .ok ()) (p : Particle) :
    let q := p.confine b
    (∀ a, b.Nearest a (p.position.along a) (q.position.along a)) ∧
    (∀ a, b.Damped a (p.velocity.along a) (q.velocity.along a)) ∧
    q.confine b = q ∧
    (∀ a (b' : Bounds) (p' : Particle), b.SameEnds b' a →
      (p'.position.along a = p.position.along a →
        (p'.confine b').position.along a = q.position.along a) ∧
      (p'.velocity.along a = p.velocity.along a →
        (p'.confine b').velocity.along a = q.velocity.along a)) ∧
    (b.contains p.position = true ↔ p.position.IsNumber ∧ q.position = p.position) := by
  intro q
  have hb := validate_eq_ok_iff.mp hvalid
  have hposition (b : Bounds) (p : Particle) (a : Axis) :
      (p.confine b).position.along a = b.clampAlong a (p.position.along a) :=
    Point.along_ofAxes _ a
  have hvelocity (b : Bounds) (p : Particle) (a : Axis) :
      (p.confine b).velocity.along a = b.dampAlong a (p.velocity.along a) :=
    Point.along_ofAxes _ a
  refine ⟨?_, ?_, confine_confine hb p, ?_, hb.contains_iff_clamp_eq⟩
  · intro a
    rw [hposition]
    exact hb.nearest_clampAlong a _
  · intro a
    rw [hvelocity]
    exact hb.damped_dampAlong a _
  · intro a b' p' hends
    constructor
    · intro hsame
      rw [hposition, hposition, hsame, hends.clampAlong_eq]
    · intro hsame
      rw [hvelocity, hvelocity, hsame, hends.dampAlong_eq]

/-- On a segment without the origin, with both ends of the second axis at `-0.0`: an infinity goes to
    the nearest end, `+0.0` is on the second axis and stays, the velocity zero is not on the first
    axis and a NaN velocity stays. -/
theorem confine_segment :
    let nan := Float.ofBits 0x7ff8000000000000
    let negZero := Float.ofBits 0x8000000000000000
    let b := rectangle 2 5 negZero negZero
    let p : Particle := ⟨⟨-Fitness.worst, 0⟩, ⟨-0.5, nan⟩, .origin⟩
    let q := p.confine b
    (b.validate = .ok () ∧ negZero ≠ 0 ∧ b.contains p.position = false) ∧
    q = ⟨⟨2, 0⟩, ⟨0, nan⟩, .origin⟩ ∧
    b.Nearest .x p.position.x q.position.x ∧ b.Damped .y p.velocity.y q.velocity.y ∧
    q.confine b = q ∧
    ¬ (p.position.IsNumber ∧ q.position = p.position) := by
  intro nan negZero b p q
  have hvalid : b.validate = .ok () := Attempt.eq_ok_of_toOption (by decide +kernel)
  have hout : b.contains p.position = false := by decide +kernel
  obtain ⟨hnearest, hdamped, hagain, -, hcontains⟩ := confine_is_projection hvalid p
  have hchanged : ¬ (p.position.IsNumber ∧ q.position = p.position) := by
    intro hsame
    have hinside := hcontains.mpr hsame
    simp [hout] at hinside
  exact ⟨⟨hvalid, by decide +kernel, hout⟩, by decide +kernel, hnearest .x, hdamped .y, hagain,
    hchanged⟩

end Particle

end ParticleSwarm
