import ParticleSwarm.Proofs.Double.Rounding

/-!
# The size of a double

Packing makes no number larger, so the bounds that rounding keeps are bounds on the doubles that an
operation gives.  A double with such a bound is finite, and a number between two bounded ends has
their bound.
-/

namespace ParticleSwarm.Double

open Float.Model Float.Model.UnpackedFloat

/-! ### Packing -/

/-- The three fields of a bit pattern and the number that they stand for. -/
theorem upTo_unpack_packComponents {q : ℚ} {s : Sign} {exponent : BitVec 11} {mantissa : BitVec 52}
    (hzero : 0 ≤ q) (hones : exponent ≠ -1#11)
    (hsubnormal : exponent = 0#11 → (mantissa.toNat : ℚ) * 2 ^ (-1074 : ℤ) ≤ q)
    (hnormal : exponent ≠ 0#11 →
      ((2 ^ 52 + mantissa.toNat : Nat) : ℚ) * 2 ^ ((exponent.toNat : ℤ) - 1075) ≤ q) :
    UpTo q (UnpackedFloat.unpack Format.binary64
      (packComponents Format.binary64 s exponent mantissa)) := by
  unfold UnpackedFloat.unpack
  simp only [unpackExponent_packComponents, unpackMantissa_packComponents]
  rw [if_neg hones]
  split_ifs with hnone hmantissa
  · exact hzero
  · have hleast : (exponent.toNat : ℤ) - (1023 + 52) + 1 = -1074 := by
      rw [hnone]
      rfl
    change -1074 ≤ (exponent.toNat : ℤ) - (1023 + 52) + 1 ∧
      (mantissa.toNat : ℚ) * 2 ^ ((exponent.toNat : ℤ) - (1023 + 52) + 1) ≤ q
    rw [hleast]
    exact ⟨le_rfl, hsubnormal hnone⟩
  · have hpositive : exponent.toNat ≠ 0 := fun h => hnone (BitVec.eq_of_toNat_eq h)
    change -1074 ≤ (exponent.toNat : ℤ) - (1023 + 52) ∧
      ((1#1 ++ mantissa).toNat : ℚ) * 2 ^ ((exponent.toNat : ℤ) - (1023 + 52)) ≤ q
    rw [toNat_implicit]
    exact ⟨by omega, hnormal hnone⟩

/-- The exponent of a number with a representable bound is far from the largest one. -/
theorem exponent_lt_of_le {m : Nat} {e : ℤ} {q : ℚ} (hm : 0 < m) (hq : Representable q)
    (h : (m : ℚ) * 2 ^ e ≤ q) : e < 953 := by
  obtain ⟨n, f, hn, -, hf, rfl⟩ := hq
  have hone : (1 : ℚ) ≤ m := by exact_mod_cast hm
  have hdigits : (n : ℚ) < 2 ^ 53 := by exact_mod_cast hn
  have hpower : (2 : ℚ) ^ e < 2 ^ (953 : ℤ) :=
    calc (2 : ℚ) ^ e ≤ m * 2 ^ e := le_mul_of_one_le_left (two_zpow_pos e).le hone
      _ ≤ n * 2 ^ f := h
      _ < 2 ^ 53 * 2 ^ f := mul_lt_mul_of_pos_right hdigits (two_zpow_pos f)
      _ ≤ 2 ^ 53 * 2 ^ (900 : ℤ) :=
        mul_le_mul_of_nonneg_left (zpow_le_zpow_right₀ one_le_two hf) (by positivity)
      _ = 2 ^ (953 : ℤ) := (two_zpow_add 53 900).symm
  exact (zpow_lt_zpow_iff_right₀ one_lt_two).mp hpower

/-- Packing makes no number larger. -/
theorem UpTo.pack {q : ℚ} {u : UnpackedFloat} (h : UpTo q u) (hq : Representable q) :
    UpTo q (Float.Model.pack u).unpack := by
  change UpTo q (UnpackedFloat.unpack _ (UnpackedFloat.pack Format.binary64 u))
  cases u with
  | infinity | notANumber => cases h
  | zero s =>
    refine upTo_unpack_packComponents hq.nonneg (by decide) (fun _ => ?_) fun h => absurd rfl h
    change ((0 : Nat) : ℚ) * _ ≤ q
    rw [Nat.cast_zero, zero_mul]
    exact hq.nonneg
  | finite s m e hm =>
    obtain ⟨hleast, hsize⟩ := h
    have hmost := exponent_lt_of_le hm hq hsize
    have hbiased : (e + Format.binary64.exponentBias +
        Format.binary64.mantissaBitsWithoutImplicit).toNat = (e + 1075).toNat := by
      change (e + 1023 + 52).toNat = _
      omega
    have hroom : ¬ 2 ^ Format.binary64.exponentBits ≤ (e + 1075).toNat + 1 := by
      change ¬ 2048 ≤ _
      omega
    unfold UnpackedFloat.pack
    dsimp only
    rw [hbiased, if_neg hroom]
    split
    case isTrue hnormal =>
      have hexponent : (BitVec.ofNat 11 (e + 1075).toNat).toNat = (e + 1075).toNat := by
        rw [BitVec.toNat_ofNat, Nat.mod_eq_of_lt (by omega)]
      have hmantissa : 2 ^ 52 + (BitVec.ofNat 52 m).toNat = m := by
        have hlog : m.log2 = 52 := Nat.succ.inj hnormal
        obtain ⟨hlow, hhigh⟩ := (Nat.log2_eq_iff hm.ne').mp hlog
        rw [BitVec.toNat_ofNat]
        omega
      have hnot (n : Nat) (hn : n = 0 ∨ n = 2047) :
          (BitVec.ofNat 11 (e + 1075).toNat).toNat ≠ n := by
        rw [hexponent]
        omega
      refine upTo_unpack_packComponents hq.nonneg (fun hones => ?_) (fun hnone => ?_) fun _ => ?_
      · exact absurd (congrArg BitVec.toNat hones) (hnot 2047 (Or.inr rfl))
      · exact absurd (congrArg BitVec.toNat hnone) (hnot 0 (Or.inl rfl))
      · have he : ((e + 1075).toNat : ℤ) - 1075 = e := by omega
        rw [hmantissa, hexponent, he]
        exact hsize
    case isFalse =>
      refine upTo_unpack_packComponents hq.nonneg (by decide) (fun _ => ?_) fun h => absurd rfl h
      refine le_trans (mul_le_mul ?_ (zpow_le_zpow_right₀ one_le_two hleast)
        (two_zpow_pos _).le (Nat.cast_nonneg m)) hsize
      rw [BitVec.toNat_ofNat]
      exact_mod_cast Nat.mod_le m _

/-! ### Doubles -/

def size (v : Float) : ℚ := unpackedSize v.toModel.unpack

def AtMost (q : ℚ) (v : Float) : Prop := UpTo q v.toModel.unpack

instance (q : ℚ) (v : Float) : Decidable (AtMost q v) := inferInstanceAs (Decidable (UpTo q _))

theorem atMost_size {v : Float} (hv : v.isFinite = true) : AtMost (size v) v := by
  change v.toModel.unpack.isFinite = true at hv
  unfold AtMost size
  rcases hunpack : v.toModel.unpack with _ | _ | _ | ⟨s, m, e, hm⟩
  case infinity | notANumber =>
    rw [hunpack] at hv
    cases hv
  case zero => exact le_rfl
  case finite => exact ⟨(normal_of_unpack hunpack).1, le_rfl⟩

theorem isFinite_of_size_pos {v : Float} (h : 0 < size v) : v.isFinite = true := by
  change v.toModel.unpack.isFinite = true
  unfold size at h
  cases hunpack : v.toModel.unpack <;> rw [hunpack] at h
  case infinity | notANumber => exact absurd h (lt_irrefl 0)
  all_goals rfl

theorem mul_two_zpow_le_of_unpack {v w : Float} {s t : Sign} {m n : Nat} {e f : ℤ} {hm : 0 < m}
    {hn : 0 < n} (hv : v.toModel.unpack = .finite s m e hm)
    (hw : w.toModel.unpack = .finite t n f hn) (h : e < f ∨ e = f ∧ m ≤ n) :
    (m : ℚ) * 2 ^ e ≤ n * 2 ^ f := by
  obtain ⟨hleast, hdigits, -⟩ := normal_of_unpack hv
  obtain ⟨-, -, hnormal⟩ := normal_of_unpack hw
  rcases h with hlt | ⟨rfl, hle⟩
  · have hm' : (m : ℚ) ≤ 2 ^ 53 := by exact_mod_cast hdigits.le
    have hn' : (2 : ℚ) ^ 52 ≤ n := by
      exact_mod_cast hnormal.resolve_left (by omega)
    calc (m : ℚ) * 2 ^ e ≤ 2 ^ 53 * 2 ^ e := mul_le_mul_of_nonneg_right hm' (two_zpow_pos e).le
      _ = 2 ^ 52 * 2 ^ (e + 1) := by
          rw [two_zpow_add]
          ring
      _ ≤ n * 2 ^ f := mul_le_mul hn' (zpow_le_zpow_right₀ one_le_two hlt)
          (two_zpow_pos _).le (Nat.cast_nonneg n)
  · exact mul_le_mul_of_nonneg_right (by exact_mod_cast hle) (two_zpow_pos e).le

/-- A number between two finite ends is as large as one of them at most. -/
theorem exists_end_of_le_of_le {low v high : Float} (hlow : low.isFinite = true)
    (hhigh : high.isFinite = true) (hl : low ≤ v) (hh : v ≤ high) {s : Sign} {m : Nat} {e : ℤ}
    {hm : 0 < m} (hunpack : v.toModel.unpack = .finite s m e hm) :
    ∃ w n f hn, (w = low ∨ w = high) ∧ w.toModel.unpack = .finite s n f hn ∧
      (e < f ∨ e = f ∧ m ≤ n) := by
  have hv := (isNaN_eq_false_of_le hl).2
  rw [le_iff_place (isNaN_eq_false_of_isFinite hlow) hv] at hl
  rw [le_iff_place hv (isNaN_eq_false_of_isFinite hhigh)] at hh
  unfold place at hl hh
  change low.toModel.unpack.isFinite = true at hlow
  change high.toModel.unpack.isFinite = true at hhigh
  rw [hunpack] at hl hh
  cases s with
  | negative =>
    rcases hend : low.toModel.unpack with t | _ | t | ⟨_ | _, n, f, hn⟩ <;> rw [hend] at hl hlow
    case infinity | notANumber => cases hlow
    case zero | finite.positive =>
      rcases placeAt_le_iff.mp hl with h | ⟨h, -⟩ <;> omega
    case finite.negative =>
      refine ⟨low, n, f, hn, Or.inl rfl, hend, ?_⟩
      rcases placeAt_le_iff.mp hl with h | ⟨-, h⟩ <;> omega
  | positive =>
    rcases hend : high.toModel.unpack with t | _ | t | ⟨_ | _, n, f, hn⟩ <;> rw [hend] at hh hhigh
    case infinity | notANumber => cases hhigh
    case zero | finite.negative =>
      rcases placeAt_le_iff.mp hh with h | ⟨h, -⟩ <;> omega
    case finite.positive =>
      refine ⟨high, n, f, hn, Or.inr rfl, hend, ?_⟩
      rcases placeAt_le_iff.mp hh with h | ⟨-, h⟩ <;> omega

namespace AtMost

variable {p q r : ℚ} {v w : Float}

theorem isFinite (h : AtMost q v) : v.isFinite = true := UpTo.isFinite h

theorem nonneg (h : AtMost q v) : 0 ≤ q := UpTo.nonneg h

theorem mono (h : AtMost q v) (hqr : q ≤ r) : AtMost r v := UpTo.mono h hqr

theorem size_le (h : AtMost q v) : size v ≤ q := by
  unfold AtMost at h
  unfold size
  cases hunpack : v.toModel.unpack <;> rw [hunpack] at h
  case infinity | notANumber => cases h
  case zero => exact h
  case finite => exact h.2

/-- What lies between two bounded ends has their bound. -/
theorem of_le_of_le {low high : Float} (hlow : AtMost q low) (hhigh : AtMost q high)
    (hl : low ≤ v) (hh : v ≤ high) : AtMost q v := by
  have hfinite := isFinite_of_le_of_le hlow.isFinite hhigh.isFinite hl hh
  refine (atMost_size hfinite).mono ?_
  unfold size
  rcases hunpack : v.toModel.unpack with s | _ | s | ⟨s, m, e, hm⟩
  case infinity | notANumber | zero => exact hlow.nonneg
  case finite =>
    obtain ⟨w, n, f, hn, hw, hend, hle⟩ :=
      exists_end_of_le_of_le hlow.isFinite hhigh.isFinite hl hh hunpack
    have hbound : AtMost q w := by
      rcases hw with rfl | rfl
      · exact hlow
      · exact hhigh
    rw [AtMost, hend] at hbound
    exact (mul_two_zpow_le_of_unpack hunpack hend hle).trans hbound.2

section Operations

variable (hr : Representable r)
include hr

theorem add (hv : AtMost p v) (hw : AtMost q w) (h : p + q ≤ r) : AtMost r (v + w) :=
  (UpTo.add hv hw hr h).pack hr

theorem sub (hv : AtMost p v) (hw : AtMost q w) (h : p + q ≤ r) : AtMost r (v - w) :=
  (UpTo.sub hv hw hr h).pack hr

theorem mul (hv : AtMost p v) (hw : AtMost q w) (h : p * q ≤ r) : AtMost r (v * w) :=
  (UpTo.mul hv hw hr h).pack hr

theorem div (hv : AtMost p v) (hw : 0 < size w) (h : p ≤ r * size w) : AtMost r (v / w) :=
  (UpTo.div hv hr hw h).pack hr

theorem toFloat {n : UInt64} (h : (n.toNat : ℚ) ≤ r) : AtMost r n.toFloat := by
  refine (upTo_normalize (m := n.toNat) .positive hr ?_).pack hr
  rw [zpow_zero, mul_one]
  exact h

end Operations

/-- A finite double is below a positive one of larger size, and above a negative one. -/
theorem lt_of_size_lt (hv : v.isFinite = true) (h : size v < size w) :
    (0 ≤ w → v < w) ∧ (w ≤ 0 → w < v) := by
  have hpositive : 0 < size w := (atMost_size hv).nonneg.trans_lt h
  have hnan := isNaN_eq_false_of_isFinite hv
  have hnan' := isNaN_eq_false_of_isFinite (isFinite_of_size_pos hpositive)
  have hzero : AtMost (size v) 0 := (atMost_size hv).nonneg
  have hout : ¬ AtMost (size v) w := fun hbound => absurd hbound.size_le (not_le.mpr h)
  refine ⟨fun hpos => ?_, fun hneg => ?_⟩
  · by_contra hnot
    exact hout (hzero.of_le_of_le (atMost_size hv) hpos ((not_lt_iff_le hnan hnan').mp hnot))
  · by_contra hnot
    exact hout ((atMost_size hv).of_le_of_le hzero ((not_lt_iff_le hnan' hnan).mp hnot) hneg)

end AtMost

/-- At most `1e120` in size, which leaves room for products. -/
def Moderate (v : Float) : Prop := -1e120 ≤ v ∧ v ≤ 1e120

theorem Moderate.atMost {v : Float} (h : Moderate v) : AtMost (2 ^ 399) v :=
  AtMost.of_le_of_le (by decide +kernel) (by decide +kernel) h.1 h.2

end ParticleSwarm.Double
