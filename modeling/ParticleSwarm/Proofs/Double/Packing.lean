import Mathlib
import ParticleSwarm.Proofs.Double.Order

/-!
# Packing and unpacking doubles

Every result of an operation on doubles is packed into 64 bits and unpacked again for the next
one.  Packing never makes a NaN of a number nor a number of a NaN, and a bit pattern stands for a
finite number exactly when its exponent field is not full.
-/

namespace ParticleSwarm.Double

open Float.Model Float.Model.UnpackedFloat

abbrev Bits : Type := BitVec Format.binary64.numBits

/-! ### NaN -/

theorem isNaN_unpack_iff {b : Bits} :
    (UnpackedFloat.unpack Format.binary64 b).isNaN = true ↔
      unpackExponent b = -1#_ ∧ unpackMantissa b ≠ 0#_ := by
  unfold UnpackedFloat.unpack
  dsimp only
  by_cases hexponent : unpackExponent b = -1#_
  · rw [if_pos hexponent]
    by_cases hmantissa : unpackMantissa b = 0#_
    · rw [if_pos hmantissa]
      simp [hmantissa, UnpackedFloat.isNaN]
    · rw [if_neg hmantissa]
      simp [hexponent, hmantissa, UnpackedFloat.isNaN]
  · rw [if_neg hexponent]
    simp only [hexponent, false_and, iff_false]
    split
    · split
      · exact Bool.false_ne_true
      · exact Bool.false_ne_true
    · exact Bool.false_ne_true

/-- Packing makes no NaN of a number and no number of a NaN. -/
theorem isNaN_unpack_pack (u : UnpackedFloat) :
    (UnpackedFloat.unpack Format.binary64 (UnpackedFloat.pack Format.binary64 u)).isNaN =
      u.isNaN := by
  rw [Bool.eq_iff_iff, isNaN_unpack_iff]
  fun_cases UnpackedFloat.pack with
  | case1 => simp [packedNaN, UnpackedFloat.isNaN]
  | case2 s => simp [packedInfinity, UnpackedFloat.isNaN]
  | case3 s => simp [packedZero, UnpackedFloat.isNaN]
  | case4 s m e hm biasedExponent h => simp [packedInfinity, UnpackedFloat.isNaN]
  | case5 s m e hm actualMantissaBits biasedExponent h₁ h₂ =>
    have hexponent : BitVec.ofNat Format.binary64.exponentBits biasedExponent ≠ -1#_ := by
      intro h
      have htoNat := congrArg BitVec.toNat h
      rw [BitVec.toNat_ofNat, Nat.mod_eq_of_lt (by omega)] at htoNat
      change biasedExponent = 2047 at htoNat
      change ¬ 2048 ≤ biasedExponent + 1 at h₁
      omega
    rw [unpackExponent_packComponents]
    exact iff_of_false (fun h => hexponent h.1) Bool.false_ne_true
  | case6 s m e hm actualMantissaBits biasedExponent h₁ h₂ =>
    simp [UnpackedFloat.isNaN]

theorem isNaN_ofModel_pack (u : UnpackedFloat) :
    (Float.ofModel (Float.Model.pack u)).isNaN = u.isNaN := isNaN_unpack_pack u

/-! ### The bits that were unpacked -/

/-- Nothing is lost between two operations. -/
theorem ofModel_pack_unpack (v : Float) :
    Float.ofModel (Float.Model.pack v.toModel.unpack) = v := by
  rcases v with ⟨⟨bits, hvalid⟩⟩
  have hbits : UnpackedFloat.pack Format.binary64
      (UnpackedFloat.unpack Format.binary64 bits.toBitVec) = bits.toBitVec :=
    pack_unpack_of_valid hvalid
  unfold Float.Model.pack Float.Model.unpack
  congr 2
  rw [hbits]

theorem unpack_inj {v w : Float} : v.toModel.unpack = w.toModel.unpack ↔ v = w := by
  constructor
  · intro h
    rw [← ofModel_pack_unpack v, ← ofModel_pack_unpack w, h]
  · intro h
    rw [h]

/-! ### Bit patterns of finite numbers -/

/-- The exponent field of a bit pattern is not the one of the infinities and of NaN. -/
def Ordinary (n : Nat) : Prop := n / 2 ^ 52 % 2 ^ 11 ≠ 2047

theorem toNat_unpackExponent (b : Bits) : (unpackExponent b).toNat = b.toNat / 2 ^ 52 % 2 ^ 11 := by
  rw [unpackExponent, BitVec.toNat_cast, BitVec.extractLsb_toNat, Nat.shiftRight_eq_div_pow]
  rfl

theorem isFinite_unpack_iff {b : Bits} :
    (UnpackedFloat.unpack Format.binary64 b).isFinite = true ↔ Ordinary b.toNat := by
  have hordinary : Ordinary b.toNat ↔ unpackExponent b ≠ -1#_ := by
    rw [Ordinary, ← toNat_unpackExponent, Ne, Ne, ← BitVec.toNat_inj]
    exact Iff.rfl
  rw [hordinary]
  unfold UnpackedFloat.unpack
  dsimp only
  by_cases hexponent : unpackExponent b = -1#_
  · rw [if_pos hexponent]
    refine iff_of_false ?_ fun h => h hexponent
    split
    · exact Bool.false_ne_true
    · exact Bool.false_ne_true
  · rw [if_neg hexponent]
    refine iff_of_true ?_ hexponent
    split
    · split <;> rfl
    · rfl

theorem isFinite_iff_ordinary {v : Float} : v.isFinite = true ↔ Ordinary v.toBits.toNat :=
  isFinite_unpack_iff

theorem pack_unpack_of_isFinite {b : Bits}
    (h : (UnpackedFloat.unpack Format.binary64 b).isFinite = true) :
    UnpackedFloat.pack Format.binary64 (UnpackedFloat.unpack Format.binary64 b) = b := by
  have hnum : isNaNBits b ≠ true := by
    intro hbits
    have hnan := isNaN_unpack_iff.mpr (of_decide_eq_true hbits)
    cases hcase : UnpackedFloat.unpack Format.binary64 b <;> rw [hcase] at h hnan
    case notANumber => cases h
    all_goals cases hnan
  rw [UnpackedFloat.pack_unpack b (by decide), if_neg hnum]

theorem isFinite_ofBits {n : Nat} (hn : n < 2 ^ 64) (h : Ordinary n) :
    (Float.ofBits (.ofNat n)).isFinite = true := by
  have htoNat : (UInt64.ofNat n).toBitVec.toNat = n := by
    rw [UInt64.toNat_toBitVec, UInt64.toNat_ofNat_of_lt' hn]
  have hfinite :
      (UnpackedFloat.unpack Format.binary64 (UInt64.ofNat n).toBitVec).isFinite = true := by
    rw [isFinite_unpack_iff, htoNat]
    exact h
  change (UnpackedFloat.unpack Format.binary64
    (UnpackedFloat.pack Format.binary64 _)).isFinite = true
  rw [pack_unpack_of_isFinite hfinite]
  exact hfinite

/-! ### Subtraction -/

theorem apply_neg (s : Sign) (n : ℤ) : (-s).apply n = -s.apply n := by
  cases s
  · exact (neg_neg n).symm
  · rfl

/-- Unpacked numbers are subtracted by adding the opposite, the zeros and the infinities included. -/
theorem unpacked_sub_eq_add_neg (spec : Format) (a b : UnpackedFloat) :
    UnpackedFloat.sub spec a b = UnpackedFloat.add spec a b.neg := by
  rcases a with s | _ | s | ⟨s, m, e, hm⟩ <;> rcases b with t | _ | t | ⟨t, n, f, hn⟩
  case finite.finite =>
    unfold UnpackedFloat.sub UnpackedFloat.add UnpackedFloat.neg
    dsimp only
    rw [apply_neg]
    rfl
  all_goals rfl

/-! ### Normal numbers -/

theorem toNat_implicit (v : BitVec 52) : (1#1 ++ v).toNat = 2 ^ 52 + v.toNat := by
  rw [BitVec.toNat_append, ← Nat.shiftLeft_add_eq_or_of_lt v.isLt]
  rfl

/-- A finite double has a mantissa of 53 digits, or fewer digits and the least exponent. -/
theorem normal_of_unpack {b : Bits} {s : Sign} {m : Nat} {e : ℤ} {hm : 0 < m}
    (h : UnpackedFloat.unpack Format.binary64 b = .finite s m e hm) :
    -1074 ≤ e ∧ m < 2 ^ 53 ∧ (e = -1074 ∨ 2 ^ 52 ≤ m) := by
  have hmantissaLt : (unpackMantissa b).toNat < 2 ^ 52 := (unpackMantissa b).isLt
  unfold UnpackedFloat.unpack at h
  dsimp only at h
  split_ifs at h with hones hmantissa hzero hmantissa
  · injection h with _ hm' he
    rw [hzero] at he
    change (0 : ℤ) - (1023 + 52) + 1 = e at he
    omega
  · have himplicit := toNat_implicit (unpackMantissa b)
    have hpositive : (unpackExponent b).toNat ≠ 0 := fun h => hzero (BitVec.eq_of_toNat_eq h)
    injection h with _ hm' he
    change _ - ((1023 : ℤ) + 52) = e at he
    omega

end ParticleSwarm.Double
