import Mathlib.Data.Prod.Lex
import Mathlib.Tactic.Order
import ParticleSwarm.Fitness

/-!
# The order of doubles

Doubles are compared by class and sign, then by exponent, then by mantissa.  `place` reads this off
an unpacked double as a triple of integers, so that a fact on `<` and `≤` of doubles is a fact on
the lexicographic order of such triples.  A NaN compares with nothing and has no place that
matters; the two zeros share one.
-/

namespace ParticleSwarm.Double

open Float.Model Float.Model.UnpackedFloat

/-! ### Places of unpacked numbers -/

/-- A place on the line: a band (infinite, finite or zero, with its sign), and within a band an
    exponent and a mantissa. -/
abbrev Place : Type := ℤ ×ₗ ℤ ×ₗ ℤ

def placeAt (band exponent mantissa : ℤ) : Place := toLex (band, toLex (exponent, mantissa))

theorem compare_placeAt (b e m b' e' m' : ℤ) :
    compare (placeAt b e m) (placeAt b' e' m') =
      (compare b b').then ((compare e e').then (compare m m')) := by
  simp [placeAt, Prod.Lex.compare_def, compareLex, compareOn]

theorem placeAt_lt_iff {b e m b' e' m' : ℤ} :
    placeAt b e m < placeAt b' e' m' ↔ b < b' ∨ b = b' ∧ (e < e' ∨ e = e' ∧ m < m') := by
  simp only [placeAt, Prod.Lex.toLex_lt_toLex]

theorem placeAt_le_iff {b e m b' e' m' : ℤ} :
    placeAt b e m ≤ placeAt b' e' m' ↔ b < b' ∨ b = b' ∧ (e < e' ∨ e = e' ∧ m ≤ m') := by
  simp only [placeAt, Prod.Lex.toLex_le_toLex]

/-- The place of an unpacked number.  Among negative numbers exponent and mantissa count
    backwards. -/
def unpackedPlace : UnpackedFloat → Place
  | .infinity .negative => placeAt (-2) 0 0
  | .finite .negative m e _ => placeAt (-1) (-e) (-m)
  | .zero _ => placeAt 0 0 0
  | .finite .positive m e _ => placeAt 1 e m
  | .infinity .positive => placeAt 2 0 0
  | .notANumber => placeAt 3 0 0

theorem compare_neg_int (a b : ℤ) : compare (-a) (-b) = (compare a b).swap := by
  rcases lt_trichotomy a b with h | rfl | h
  · rw [compare_lt_iff_lt.mpr h, compare_gt_iff_gt.mpr (Int.neg_lt_neg h), Ordering.swap_lt]
  · simp only [compare_eq_iff_eq.mpr rfl, Ordering.swap_eq]
  · rw [compare_gt_iff_gt.mpr h, compare_lt_iff_lt.mpr (Int.neg_lt_neg h), Ordering.swap_gt]

theorem compare_cast_int (m n : Nat) : compare (m : ℤ) (n : ℤ) = compare m n := by
  rcases lt_trichotomy m n with h | rfl | h
  · rw [compare_lt_iff_lt.mpr h, compare_lt_iff_lt.mpr (Int.ofNat_lt.mpr h)]
  · simp
  · rw [compare_gt_iff_gt.mpr h, compare_gt_iff_gt.mpr (Int.ofNat_lt.mpr h)]

/-- Unpacked numbers compare as their places do. -/
theorem compare_eq_compare_place {a b : UnpackedFloat} (ha : a.isNaN = false)
    (hb : b.isNaN = false) :
    a.compare b = some (compare (unpackedPlace a) (unpackedPlace b)) := by
  rcases a with (_ | _) | _ | (_ | _) | ⟨_ | _, m, e, hm⟩
  case notANumber => cases ha
  -- finite numbers of the same sign are the only ones whose exponents and mantissas matter
  case finite.negative =>
    rcases b with (_ | _) | _ | (_ | _) | ⟨_ | _, n, f, hn⟩
    case notANumber => cases hb
    case finite.negative =>
      change some ((compare e f).then (compare m n)).swap =
        some (compare (placeAt (-1) (-e) (-m)) (placeAt (-1) (-f) (-n)))
      rw [compare_placeAt, compare_neg_int e, compare_neg_int m, compare_cast_int,
        Ordering.swap_then]
      rfl
    all_goals rfl
  case finite.positive =>
    rcases b with (_ | _) | _ | (_ | _) | ⟨_ | _, n, f, hn⟩
    case notANumber => cases hb
    case finite.positive =>
      change some ((compare e f).then (compare m n)) =
        some (compare (placeAt 1 e m) (placeAt 1 f n))
      rw [compare_placeAt, compare_cast_int]
      rfl
    all_goals rfl
  all_goals
    rcases b with (_ | _) | _ | (_ | _) | ⟨_ | _, n, f, hn⟩
    case notANumber => cases hb
    all_goals rfl

/-! ### Places of doubles -/

def place (v : Float) : Place := unpackedPlace v.toModel.unpack

theorem lt_iff_compare {a b : Float} :
    a < b ↔ a.toModel.unpack.compare b.toModel.unpack = some .lt := by
  change decide (a.toModel < b.toModel) = true ↔ _
  rw [decide_eq_true_iff]
  change a.toModel.unpack.lt b.toModel.unpack = true ↔ _
  rw [UnpackedFloat.lt, beq_iff_eq]

theorem le_iff_compare {a b : Float} :
    a ≤ b ↔ (a.toModel.unpack.compare b.toModel.unpack).any Ordering.isLE = true := by
  change decide (a.toModel ≤ b.toModel) = true ↔ _
  rw [decide_eq_true_iff]
  rfl

theorem compare_of_isNaN {a b : UnpackedFloat} (h : a.isNaN = true ∨ b.isNaN = true) :
    a.compare b = none := by
  rcases h with h | h
  · cases a with
    | notANumber => rfl
    | infinity | zero | finite => cases h
  · cases b with
    | notANumber => cases a <;> rfl
    | infinity | zero | finite => cases h

theorem isNaN_eq_false_of_lt {a b : Float} (h : a < b) : a.isNaN = false ∧ b.isNaN = false := by
  rw [lt_iff_compare] at h
  constructor <;> refine Bool.eq_false_iff.mpr fun hnan => ?_
  · rw [compare_of_isNaN (Or.inl hnan)] at h
    cases h
  · rw [compare_of_isNaN (Or.inr hnan)] at h
    cases h

theorem isNaN_eq_false_of_le {a b : Float} (h : a ≤ b) : a.isNaN = false ∧ b.isNaN = false := by
  rw [le_iff_compare] at h
  constructor <;> refine Bool.eq_false_iff.mpr fun hnan => ?_
  · rw [compare_of_isNaN (Or.inl hnan)] at h
    cases h
  · rw [compare_of_isNaN (Or.inr hnan)] at h
    cases h

section Numbers

variable {a b : Float} (ha : a.isNaN = false) (hb : b.isNaN = false)
include ha hb

/-- Numbers are ordered like their places, so facts about the order are facts about integers. -/
theorem lt_iff_place : a < b ↔ place a < place b := by
  rw [lt_iff_compare, compare_eq_compare_place ha hb, Option.some_inj, compare_lt_iff_lt]
  rfl

theorem le_iff_place : a ≤ b ↔ place a ≤ place b := by
  rw [le_iff_compare, compare_eq_compare_place ha hb, Option.any_some, ← compare_le_iff_le]
  exact Ordering.isLE_iff_ne_gt

theorem not_lt_iff_le : ¬ a < b ↔ b ≤ a := by
  rw [lt_iff_place ha hb, le_iff_place hb ha, not_lt]

end Numbers

theorem le_self {a : Float} (ha : a.isNaN = false) : a ≤ a := (le_iff_place ha ha).mpr le_rfl

theorem le_of_le_of_le {a b c : Float} (hab : a ≤ b) (hbc : b ≤ c) : a ≤ c := by
  obtain ⟨ha, hb⟩ := isNaN_eq_false_of_le hab
  obtain ⟨-, hc⟩ := isNaN_eq_false_of_le hbc
  rw [le_iff_place ha hb] at hab
  rw [le_iff_place hb hc] at hbc
  exact (le_iff_place ha hc).mpr (hab.trans hbc)

theorem lt_of_lt_of_le {a b c : Float} (hab : a < b) (hbc : b ≤ c) : a < c := by
  obtain ⟨ha, hb⟩ := isNaN_eq_false_of_lt hab
  obtain ⟨-, hc⟩ := isNaN_eq_false_of_le hbc
  rw [lt_iff_place ha hb] at hab
  rw [le_iff_place hb hc] at hbc
  exact (lt_iff_place ha hc).mpr (hab.trans_le hbc)

theorem lt_of_le_of_lt {a b c : Float} (hab : a ≤ b) (hbc : b < c) : a < c := by
  obtain ⟨ha, hb⟩ := isNaN_eq_false_of_le hab
  obtain ⟨-, hc⟩ := isNaN_eq_false_of_lt hbc
  rw [le_iff_place ha hb] at hab
  rw [lt_iff_place hb hc] at hbc
  exact (lt_iff_place ha hc).mpr (hab.trans_lt hbc)

/-- Doubles that are not ordered strictly are equal as numbers, though zeros of both signs differ. -/
theorem beq_of_le_of_le {a b : Float} (hab : a ≤ b) (hba : b ≤ a) : (a == b) = true := by
  obtain ⟨ha, hb⟩ := isNaN_eq_false_of_le hab
  rw [le_iff_place ha hb] at hab
  rw [le_iff_place hb ha] at hba
  change (a.toModel.unpack.compare b.toModel.unpack == some .eq) = true
  rw [compare_eq_compare_place ha hb, beq_iff_eq, Option.some_inj, compare_eq_iff_eq]
  exact le_antisymm hab hba

theorem le_of_lt {a b : Float} (h : a < b) : a ≤ b := by
  obtain ⟨ha, hb⟩ := isNaN_eq_false_of_lt h
  rw [lt_iff_place ha hb] at h
  exact (le_iff_place ha hb).mpr h.le

/-! ### Finite doubles between finite ends -/

theorem isFinite_iff {v : Float} : v.isFinite = true ↔ v.isNaN = false ∧ v.isInf = false := by
  change v.toModel.unpack.isFinite = true ↔
    v.toModel.unpack.isNaN = false ∧ v.toModel.unpack.isInf = false
  cases v.toModel.unpack with
  | infinity s => exact iff_of_false Bool.false_ne_true fun h => Bool.false_ne_true h.2.symm
  | notANumber => exact iff_of_false Bool.false_ne_true fun h => Bool.false_ne_true h.1.symm
  | zero s => exact iff_of_true rfl ⟨rfl, rfl⟩
  | finite s m e hm => exact iff_of_true rfl ⟨rfl, rfl⟩

theorem isNaN_eq_false_of_isFinite {v : Float} (h : v.isFinite = true) : v.isNaN = false :=
  (isFinite_iff.mp h).1

/-- The finite numbers are those strictly between the infinities. -/
theorem unpacked_isFinite_iff {u : UnpackedFloat} (h : u.isNaN = false) :
    u.isFinite = true ↔ placeAt (-2) 0 0 < unpackedPlace u ∧ unpackedPlace u < placeAt 2 0 0 := by
  have hband {b b' e m e' m' : ℤ} (hlt : b < b') : placeAt b e m < placeAt b' e' m' :=
    placeAt_lt_iff.mpr (Or.inl hlt)
  rcases u with (_ | _) | _ | (_ | _) | ⟨_ | _, m, e, hm⟩
  case notANumber => cases h
  case infinity.negative => exact iff_of_false Bool.false_ne_true fun h => lt_irrefl _ h.1
  case infinity.positive => exact iff_of_false Bool.false_ne_true fun h => lt_irrefl _ h.2
  all_goals exact iff_of_true rfl ⟨hband (by decide), hband (by decide)⟩

/-- What lies between two finite numbers is finite, and it is no NaN. -/
theorem isFinite_of_le_of_le {low v high : Float} (hlow : low.isFinite = true)
    (hhigh : high.isFinite = true) (hl : low ≤ v) (hh : v ≤ high) : v.isFinite = true := by
  obtain ⟨hl', hv⟩ := isNaN_eq_false_of_le hl
  obtain ⟨-, hh'⟩ := isNaN_eq_false_of_le hh
  have hbelow := ((unpacked_isFinite_iff hl').mp hlow).1
  have habove := ((unpacked_isFinite_iff hh').mp hhigh).2
  refine (unpacked_isFinite_iff hv).mpr ⟨?_, ?_⟩
  · exact hbelow.trans_le ((le_iff_place hl' hv).mp hl)
  · exact ((le_iff_place hv hh').mp hh).trans_lt habove

end ParticleSwarm.Double
