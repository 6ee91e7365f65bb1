import ParticleSwarm.Proofs.Double.Packing

/-!
# Where NaN comes from

A sum of numbers is NaN only when opposite infinities meet, and a product only when a zero meets an
infinity.  Rounding never makes a NaN, so sums, differences and products of finite numbers are
numbers.
-/

namespace ParticleSwarm.Double

open Float.Model Float.Model.UnpackedFloat

/-! ### Rounding -/

theorem isNaN_roundWithAccuracy (spec : Format) (s : Sign) (m : Nat) (e : ℤ) (acc : Accuracy) :
    (roundWithAccuracy spec s m e acc).isNaN = false := by
  unfold roundWithAccuracy
  dsimp only
  split
  · rfl
  · rfl

theorem isNaN_normalize (spec : Format) (m e : ℤ) (s : Sign) :
    (normalize spec m e s).isNaN = false := by
  unfold UnpackedFloat.normalize
  split
  · exact isNaN_roundWithAccuracy ..
  · rfl
  · exact isNaN_roundWithAccuracy ..

/-! ### Sums, differences and products -/

theorem isInf_eq_false_of_isFinite {v : Float} (hv : v.isFinite = true) : v.isInf = false :=
  (isFinite_iff.mp hv).2

theorem isNaN_unpacked_add_infinity_iff {s t : Sign} :
    (UnpackedFloat.add Format.binary64 (.infinity s) (.infinity t)).isNaN = true ↔ s ≠ t := by
  cases s <;> cases t
  case negative.negative | positive.positive =>
    exact iff_of_false Bool.false_ne_true fun h => h rfl
  case negative.positive | positive.negative =>
    exact iff_of_true rfl nofun

theorem isNaN_unpacked_add_iff {a b : UnpackedFloat} (ha : a.isNaN = false)
    (hb : b.isNaN = false) :
    (UnpackedFloat.add Format.binary64 a b).isNaN = true ↔
      a.isInf = true ∧ b.isInf = true ∧ a ≠ b := by
  rcases a with s | _ | s | ⟨s, m, e, hm⟩
  case notANumber => cases ha
  case infinity =>
    rcases b with t | _ | t | ⟨t, n, f, hn⟩
    case notANumber => cases hb
    case infinity =>
      rw [isNaN_unpacked_add_infinity_iff, Ne, Ne, UnpackedFloat.infinity.injEq]
      exact ⟨fun h => ⟨rfl, rfl, h⟩, fun h => h.2.2⟩
    all_goals exact iff_of_false Bool.false_ne_true fun h => Bool.false_ne_true h.2.1
  case zero =>
    rcases b with t | _ | t | ⟨t, n, f, hn⟩
    case notANumber => cases hb
    case zero =>
      refine iff_of_false ?_ fun h => Bool.false_ne_true h.1
      cases s <;> cases t <;> exact Bool.false_ne_true
    all_goals exact iff_of_false Bool.false_ne_true fun h => Bool.false_ne_true h.1
  case finite =>
    rcases b with t | _ | t | ⟨t, n, f, hn⟩
    case notANumber => cases hb
    case finite =>
      refine iff_of_false ?_ fun h => Bool.false_ne_true h.1
      rw [Bool.not_eq_true]
      exact isNaN_normalize ..
    all_goals exact iff_of_false Bool.false_ne_true fun h => Bool.false_ne_true h.1

theorem isNaN_unpacked_sub_of_isFinite {a b : UnpackedFloat} (ha : a.isFinite = true)
    (hb : b.isFinite = true) : (UnpackedFloat.sub Format.binary64 a b).isNaN = false := by
  have hfinite (c : UnpackedFloat) (hc : c.isFinite = true) :
      c.isNaN = false ∧ c.isInf = false ∧ c.neg.isNaN = false := by
    cases c with
    | infinity | notANumber => cases hc
    | zero | finite => exact ⟨rfl, rfl, rfl⟩
  obtain ⟨hnumber, hbounded, -⟩ := hfinite a ha
  rw [unpacked_sub_eq_add_neg, ← Bool.not_eq_true,
    isNaN_unpacked_add_iff hnumber (hfinite b hb).2.2, hbounded]
  exact fun h => Bool.false_ne_true h.1

def isZero : UnpackedFloat → Bool
  | .zero _ => true
  | _ => false

theorem isNaN_unpacked_mul_iff {a b : UnpackedFloat} (ha : a.isNaN = false)
    (hb : b.isNaN = false) :
    (UnpackedFloat.mul Format.binary64 a b).isNaN = true ↔
      a.isInf = true ∧ isZero b = true ∨ isZero a = true ∧ b.isInf = true := by
  rcases a with s | _ | s | ⟨s, m, e, hm⟩
  case notANumber => cases ha
  case infinity | zero =>
    rcases b with t | _ | t | ⟨t, n, f, hn⟩
    case notANumber => cases hb
    all_goals simp [UnpackedFloat.mul, UnpackedFloat.isNaN, UnpackedFloat.isInf, isZero]
  case finite =>
    rcases b with t | _ | t | ⟨t, n, f, hn⟩
    case notANumber => cases hb
    case finite =>
      refine iff_of_false ?_ (by simp [UnpackedFloat.isInf, isZero])
      rw [Bool.not_eq_true]
      exact isNaN_roundWithAccuracy ..
    all_goals simp [UnpackedFloat.mul, UnpackedFloat.isNaN, UnpackedFloat.isInf, isZero]

def Opposed (v w : Float) : Prop := v.isInf = true ∧ w.isInf = true ∧ v ≠ w

def Void (v w : Float) : Prop := v.isInf = true ∧ w == 0 ∨ v == 0 ∧ w.isInf = true

theorem beq_zero_eq (v : Float) : (v == 0) = isZero v.toModel.unpack := by
  change (v.toModel.unpack.compare (0 : Float).toModel.unpack == some .eq) = _
  have hzero : (0 : Float).toModel.unpack = .zero .positive := rfl
  rw [hzero]
  rcases v.toModel.unpack with (_ | _) | _ | (_ | _) | ⟨_ | _, m, e, hm⟩ <;> rfl

theorem isNaN_unpacked_add_of_isNaN {a b : UnpackedFloat} (h : a.isNaN = true ∨ b.isNaN = true) :
    (UnpackedFloat.add Format.binary64 a b).isNaN = true := by
  rcases h with h | h
  · cases a
    case notANumber => cases b <;> rfl
    all_goals cases h
  · cases b
    case notANumber => cases a <;> rfl
    all_goals cases h

theorem isNaN_unpacked_mul_of_isNaN {a b : UnpackedFloat} (h : a.isNaN = true ∨ b.isNaN = true) :
    (UnpackedFloat.mul Format.binary64 a b).isNaN = true := by
  rcases h with h | h
  · cases a
    case notANumber => cases b <;> rfl
    all_goals cases h
  · cases b
    case notANumber => cases a <;> rfl
    all_goals cases h

variable {v w : Float}

/-- A sum of numbers is NaN only when infinities of different sign are added. -/
theorem isNaN_add_iff :
    (v + w).isNaN = true ↔ v.isNaN = true ∨ w.isNaN = true ∨ Opposed v w := by
  have hsum : (v + w).isNaN = (UnpackedFloat.add Format.binary64 v.toModel.unpack
      w.toModel.unpack).isNaN := isNaN_ofModel_pack _
  rw [hsum]
  by_cases hnan : v.isNaN = true ∨ w.isNaN = true
  · exact iff_of_true (isNaN_unpacked_add_of_isNaN hnan) (or_assoc.mp (Or.inl hnan))
  · rw [not_or, Bool.not_eq_true, Bool.not_eq_true] at hnan
    obtain ⟨hv, hw⟩ := hnan
    have hne : v ≠ w ↔ v.toModel.unpack ≠ w.toModel.unpack :=
      not_congr unpack_inj.symm
    rw [isNaN_unpacked_add_iff hv hw, hv, hw, Opposed, hne]
    simp only [Bool.false_eq_true, false_or]
    exact Iff.rfl

/-- A product of numbers is NaN only when a zero meets an infinity. -/
theorem isNaN_mul_iff :
    (v * w).isNaN = true ↔ v.isNaN = true ∨ w.isNaN = true ∨ Void v w := by
  have hproduct : (v * w).isNaN = (UnpackedFloat.mul Format.binary64 v.toModel.unpack
      w.toModel.unpack).isNaN := isNaN_ofModel_pack _
  rw [hproduct]
  by_cases hnan : v.isNaN = true ∨ w.isNaN = true
  · exact iff_of_true (isNaN_unpacked_mul_of_isNaN hnan) (or_assoc.mp (Or.inl hnan))
  · rw [not_or, Bool.not_eq_true, Bool.not_eq_true] at hnan
    obtain ⟨hv, hw⟩ := hnan
    rw [isNaN_unpacked_mul_iff hv hw, hv, hw, Void, beq_zero_eq, beq_zero_eq]
    simp only [Bool.false_eq_true, false_or]
    exact Iff.rfl

theorem isNaN_mul_iff_void (hv : v.isNaN = false) (hw : w.isNaN = false) :
    (v * w).isNaN = true ↔ Void v w := by
  rw [isNaN_mul_iff, hv, hw]
  simp only [Bool.false_eq_true, false_or]

/-! ### Finite numbers -/

theorem not_opposed_of_isFinite (hv : v.isFinite = true) : ¬ Opposed v w := by
  rintro ⟨h, -⟩
  rw [isInf_eq_false_of_isFinite hv] at h
  cases h

theorem isNaN_sub_of_isFinite (hv : v.isFinite = true) (hw : w.isFinite = true) :
    (v - w).isNaN = false :=
  (isNaN_ofModel_pack _).trans (isNaN_unpacked_sub_of_isFinite hv hw)

theorem isNaN_mul_of_isFinite (hv : v.isFinite = true) (hw : w.isFinite = true) :
    (v * w).isNaN = false := by
  rw [← Bool.not_eq_true, isNaN_mul_iff]
  rintro (h | h | ⟨h, -⟩ | ⟨-, h⟩)
  · rw [isNaN_eq_false_of_isFinite hv] at h
    cases h
  · rw [isNaN_eq_false_of_isFinite hw] at h
    cases h
  · rw [isInf_eq_false_of_isFinite hv] at h
    cases h
  · rw [isInf_eq_false_of_isFinite hw] at h
    cases h

/-- A finite summand neither makes a NaN nor hides one. -/
theorem isNaN_add_eq_of_isFinite (hv : v.isFinite = true) (w : Float) :
    (v + w).isNaN = w.isNaN := by
  have hvnum := isNaN_eq_false_of_isFinite hv
  have hnot := not_opposed_of_isFinite (w := w) hv
  rw [Bool.eq_iff_iff, isNaN_add_iff, hvnum]
  simp only [Bool.false_eq_true, hnot, false_or, or_false]

theorem isNaN_add_of_isFinite_right (hv : v.isNaN = false) (hw : w.isFinite = true) :
    (v + w).isNaN = false := by
  rw [← Bool.not_eq_true, isNaN_add_iff]
  rintro (h | h | ⟨-, h, -⟩)
  · rw [hv] at h
    cases h
  · rw [isNaN_eq_false_of_isFinite hw] at h
    cases h
  · rw [isInf_eq_false_of_isFinite hw] at h
    cases h

/-- Adding `-0.0` changes no place in the order. -/
theorem negZero_add_le (hv : v.isNaN = false) : Float.ofBits 0x8000000000000000 + v ≤ v := by
  have hunpack : (Float.ofBits 0x8000000000000000).toModel.unpack = .zero .negative := rfl
  have hsum : Float.ofBits 0x8000000000000000 + v = Float.ofModel (Float.Model.pack
      (UnpackedFloat.add Format.binary64 (.zero .negative) v.toModel.unpack)) := by
    rw [← hunpack]
    rfl
  have hsame := ofModel_pack_unpack v
  change v.toModel.unpack.isNaN = false at hv
  rw [hsum]
  cases hcase : v.toModel.unpack with
  | zero s =>
    have hplace : place v = placeAt 0 0 0 := by
      rw [place, hcase]
      cases s <;> rfl
    cases s
    all_goals
      rw [le_iff_place rfl hv, hplace]
      exact le_rfl
  | notANumber =>
    rw [hcase] at hv
    cases hv
  | infinity s =>
    rw [hcase] at hsame
    have habsorb : UnpackedFloat.add Format.binary64 (.zero .negative) (.infinity s) =
        .infinity s := rfl
    rw [habsorb, hsame]
    exact le_self hv
  | finite s m e hm =>
    rw [hcase] at hsame
    have habsorb : UnpackedFloat.add Format.binary64 (.zero .negative) (.finite s m e hm) =
        .finite s m e hm := rfl
    rw [habsorb, hsame]
    exact le_self hv

end ParticleSwarm.Double
