import ParticleSwarm.Proofs.Double.Order
import ParticleSwarm.Proofs.Validation

/-!
# Clamping

Within good bounds a coordinate that is a number is clamped into its axis, and a NaN stays a NaN.
So a clamped point lies in the rectangle exactly when no coordinate of it was NaN before.  Clamping
and damping change nothing the second time.
-/

namespace ParticleSwarm

namespace Point

def IsNumber (p : Point) : Prop := ∀ a, (p.along a).isNaN = false

def IsFinite (p : Point) : Prop := ∀ a, (p.along a).isFinite = true

theorem IsFinite.isNumber {p : Point} (h : p.IsFinite) : p.IsNumber :=
  fun a => Double.isNaN_eq_false_of_isFinite (h a)

end Point

namespace Bounds

variable {b : Bounds} {a : Axis} {v : Float} {p : Point}

theorem containsAlong_iff :
    b.containsAlong a v = true ↔ b.min.along a ≤ v ∧ v ≤ b.max.along a := by
  rw [containsAlong, Bool.and_eq_true, decide_eq_true_iff, decide_eq_true_iff]

theorem contains_iff : b.contains p = true ↔ ∀ a, b.containsAlong a (p.along a) = true := by
  rw [contains, Bool.and_eq_true]
  constructor
  · rintro ⟨hx, hy⟩ (_ | _)
    · exact hx
    · exact hy
  · intro h
    exact ⟨h .x, h .y⟩

theorem isNaN_of_containsAlong (h : b.containsAlong a v = true) : v.isNaN = false :=
  (Double.isNaN_eq_false_of_le (containsAlong_iff.mp h).1).2

theorem Good.min_le_max (hb : b.Good) (a : Axis) : b.min.along a ≤ b.max.along a := by
  have hmin := Double.isNaN_eq_false_of_isFinite (hb.isFinite_min a)
  have hmax := Double.isNaN_eq_false_of_isFinite (hb.isFinite_max a)
  exact (Double.not_lt_iff_le hmax hmin).mp (hb.not_min_gt_max a)

theorem Good.isFinite_of_containsAlong (hb : b.Good) (h : b.containsAlong a v = true) :
    v.isFinite = true := by
  obtain ⟨hlow, hhigh⟩ := containsAlong_iff.mp h
  exact Double.isFinite_of_le_of_le (hb.isFinite_min a) (hb.isFinite_max a) hlow hhigh

theorem Good.containsAlong_clampAlong (hb : b.Good) (a : Axis) (hv : v.isNaN = false) :
    b.containsAlong a (b.clampAlong a v) = true := by
  have hmin := Double.isNaN_eq_false_of_isFinite (hb.isFinite_min a)
  have hmax := Double.isNaN_eq_false_of_isFinite (hb.isFinite_max a)
  rw [containsAlong_iff, clampAlong]
  by_cases habove : v > b.max.along a
  · rw [if_pos habove]
    exact ⟨hb.min_le_max a, Double.le_self hmax⟩
  · rw [if_neg habove]
    by_cases hbelow : v < b.min.along a
    · rw [if_pos hbelow]
      exact ⟨Double.le_self hmin, hb.min_le_max a⟩
    · rw [if_neg hbelow]
      have hlow : b.min.along a ≤ v := (Double.not_lt_iff_le hv hmin).mp hbelow
      have hhigh : v ≤ b.max.along a := (Double.not_lt_iff_le hmax hv).mp habove
      exact ⟨hlow, hhigh⟩

theorem clampAlong_of_isNaN (hv : v.isNaN = true) : b.clampAlong a v = v := by
  have hnlt (w : Float) : ¬ v < w := fun h => by
    rw [(Double.isNaN_eq_false_of_lt h).1] at hv
    cases hv
  have hngt (w : Float) : ¬ v > w := fun h => by
    rw [(Double.isNaN_eq_false_of_lt h).2] at hv
    cases hv
  rw [clampAlong, if_neg (hngt _), if_neg (hnlt _)]

/-- Clamping fails to confine a point in one way only: a coordinate was NaN. -/
theorem Good.contains_clamp_iff (hb : b.Good) : b.contains (b.clamp p) = true ↔ p.IsNumber := by
  rw [contains_iff]
  constructor
  · intro h a
    have hcontains := h a
    rw [clamp, Point.along_ofAxes] at hcontains
    by_contra hnan
    rw [Bool.not_eq_false] at hnan
    rw [clampAlong_of_isNaN hnan] at hcontains
    rw [isNaN_of_containsAlong hcontains] at hnan
    cases hnan
  · intro h a
    rw [clamp, Point.along_ofAxes]
    exact hb.containsAlong_clampAlong a (h a)

theorem Good.isFinite_of_contains (hb : b.Good) (h : b.contains p = true) :
    p.IsFinite :=
  fun a => hb.isFinite_of_containsAlong (contains_iff.mp h a)

def Spans (b : Bounds) (v : Point) : Prop :=
  ∀ a, v.along a = 0 ∨ b.containsAlong a (v.along a) = true

theorem spans_origin (b : Bounds) : b.Spans .origin := by
  intro a
  cases a
  · exact Or.inl rfl
  · exact Or.inl rfl

theorem spans_of_contains (h : b.contains p = true) : b.Spans p :=
  fun a => Or.inr (contains_iff.mp h a)

theorem Good.isFinite_of_spans (hb : b.Good) (h : b.Spans p) : p.IsFinite := by
  intro a
  rcases h a with hzero | hinside
  · rw [hzero]
    decide +kernel
  · exact hb.isFinite_of_containsAlong hinside

/-- A velocity that is damped has no component beyond the ends, since one that was beyond them is
    zero. -/
theorem Good.spans_damp (hb : b.Good) (h : p.IsNumber) : b.Spans (b.damp p) := by
  intro a
  rw [damp, Point.along_ofAxes, dampAlong]
  split
  case isTrue => exact Or.inl rfl
  case isFalse hinside =>
    rw [not_or] at hinside
    have hmin := Double.isNaN_eq_false_of_isFinite (hb.isFinite_min a)
    have hmax := Double.isNaN_eq_false_of_isFinite (hb.isFinite_max a)
    have hlow := (Double.not_lt_iff_le (h a) hmin).mp hinside.2
    have hhigh := (Double.not_lt_iff_le hmax (h a)).mp hinside.1
    exact Or.inr (containsAlong_iff.mpr ⟨hlow, hhigh⟩)

/-! ### Once and twice -/

theorem clampAlong_of_containsAlong (h : b.containsAlong a v = true) : b.clampAlong a v = v := by
  obtain ⟨hlow, hhigh⟩ := containsAlong_iff.mp h
  obtain ⟨hmin, hv⟩ := Double.isNaN_eq_false_of_le hlow
  obtain ⟨-, hmax⟩ := Double.isNaN_eq_false_of_le hhigh
  have hnot : ¬ v < b.min.along a := (Double.not_lt_iff_le hv hmin).mpr hlow
  have hnot' : ¬ v > b.max.along a := (Double.not_lt_iff_le hmax hv).mpr hhigh
  rw [clampAlong, if_neg hnot', if_neg hnot]

theorem Good.clamp_clamp (hb : b.Good) (p : Point) : b.clamp (b.clamp p) = b.clamp p := by
  apply Point.ext_along
  intro a
  simp only [clamp, Point.along_ofAxes]
  cases hnan : (p.along a).isNaN with
  | true => rw [clampAlong_of_isNaN hnan, clampAlong_of_isNaN hnan]
  | false => rw [clampAlong_of_containsAlong (hb.containsAlong_clampAlong a hnan)]

/-- A component that is set to zero stays zero, also when zero lies beyond the ends. -/
theorem damp_damp (b : Bounds) (v : Point) : b.damp (b.damp v) = b.damp v := by
  apply Point.ext_along
  intro a
  simp only [damp, Point.along_ofAxes]
  by_cases hout : v.along a > b.max.along a ∨ v.along a < b.min.along a
  · simp [dampAlong, hout]
  · simp [dampAlong, hout]

end Bounds

end ParticleSwarm
