import ParticleSwarm.Proofs.Double.Packing

/-!
# Rounding is monotone

The size of a finite number is its mantissa times a power of two.  A bound on the exact result of an
operation that is itself a mantissa of 53 digits times such a power is a bound on the rounded result
as well: at the place where the result is rounded, the bound is a whole number.  So sharp bounds on
sizes go through sums, differences, products and quotients.
-/

namespace ParticleSwarm.Double

open Float.Model Float.Model.UnpackedFloat

/-- The numbers that have a mantissa of at most 53 digits and an exponent that a double can have,
    but is far from the largest one. -/
def Representable (q : ℚ) : Prop :=
  ∃ (n : Nat) (f : ℤ), n < 2 ^ 53 ∧ -1074 ≤ f ∧ f ≤ 900 ∧ q = n * 2 ^ f

/-- A finite number of size at most `q`, with an exponent that a double can have. -/
def UpTo (q : ℚ) : UnpackedFloat → Prop
  | .zero _ => 0 ≤ q
  | .finite _ m e _ => -1074 ≤ e ∧ (m : ℚ) * 2 ^ e ≤ q
  | _ => False

instance (q : ℚ) : DecidablePred (UpTo q)
  | .zero _ => inferInstanceAs (Decidable (0 ≤ q))
  | .finite _ m e _ => inferInstanceAs (Decidable (-1074 ≤ e ∧ (m : ℚ) * 2 ^ e ≤ q))
  | .infinity _ | .notANumber => .isFalse id

/-! ### Powers of two -/

theorem two_zpow_pos (e : ℤ) : (0 : ℚ) < 2 ^ e := zpow_pos two_pos e

theorem two_zpow_add (e f : ℤ) : (2 : ℚ) ^ (e + f) = 2 ^ e * 2 ^ f := zpow_add₀ two_ne_zero e f

theorem mul_two_zpow_nonneg (m : Nat) (e : ℤ) : (0 : ℚ) ≤ m * 2 ^ e :=
  mul_nonneg (Nat.cast_nonneg m) (two_zpow_pos e).le

theorem mul_two_zpow_add_natCast (m : ℚ) (e : ℤ) (j : Nat) :
    m * 2 ^ (e + j) = m * 2 ^ j * 2 ^ e := by
  rw [two_zpow_add, zpow_natCast]
  ring

/-- Bringing a number to a smaller exponent does not change it. -/
theorem shiftLeft_mul_two_zpow (m : Nat) {e f : ℤ} (h : f ≤ e) :
    ((m <<< (e - f).toNat : Nat) : ℚ) * 2 ^ f = m * 2 ^ e := by
  have he : e = f + (e - f).toNat := by omega
  conv_rhs => rw [he, mul_two_zpow_add_natCast]
  rw [Nat.shiftLeft_eq]
  push_cast
  rfl

theorem Representable.nonneg {q : ℚ} (hq : Representable q) : 0 ≤ q := by
  obtain ⟨n, f, -, -, -, rfl⟩ := hq
  exact mul_two_zpow_nonneg n f

theorem representable_mul_two_pow {n k : Nat} (hn : n < 2 ^ 53) (hk : k ≤ 900) :
    Representable (n * 2 ^ k) := ⟨n, k, hn, by omega, by omega, by rw [zpow_natCast]⟩

theorem representable_natCast {n : Nat} (h : n < 2 ^ 53) : Representable n := by
  have hwhole := representable_mul_two_pow (k := 0) h (by decide)
  rwa [pow_zero, mul_one] at hwhole

theorem representable_quarters {n : Nat} (h : n < 2 ^ 53) : Representable (n / 4) := by
  refine ⟨n, -2, h, by decide, by decide, ?_⟩
  norm_num
  ring

/-! ### Truncated mantissas -/

theorem mantissa_ofMantissaAndAccuracy (m : Nat) (acc : Accuracy) :
    (ExtendedMantissa.ofMantissaAndAccuracy m acc).mantissa = m := by
  rcases acc with _ | (_ | _ | _) <;> rfl

theorem mantissa_shiftRight (em : ExtendedMantissa) (j : Nat) :
    (em >>> j).mantissa = em.mantissa / 2 ^ j := by
  induction j with
  | zero => exact (Nat.div_one _).symm
  | succ j ih =>
    change (em >>> j).mantissa / 2 = _
    rw [ih, Nat.div_div_eq_div_mul, Nat.pow_succ]

/-- The mantissa comes from an exact number by leaving out binary places, and the two bits tell
    whether anything but zeros was left out. -/
structure Truncates (em : ExtendedMantissa) (x : ℚ) : Prop where
  le : em.mantissa ≤ x
  lt : em.roundBit = true ∨ em.stickyBit = true → em.mantissa < x

theorem truncates_exact (m : Nat) : Truncates (.ofMantissaAndAccuracy m .exact) m :=
  ⟨le_rfl, fun h => by rcases h with h | h <;> cases h⟩

theorem truncates_of_lt {m : Nat} {x : ℚ} (h : (m : ℚ) < x) (acc : Accuracy) :
    Truncates (.ofMantissaAndAccuracy m acc) x := by
  have hmantissa := mantissa_ofMantissaAndAccuracy m acc
  exact ⟨by rw [hmantissa]; exact h.le, fun _ => by rw [hmantissa]; exact h⟩

/-- The whole part of a quotient comes from the exact quotient. -/
theorem truncates_div (m : Nat) {n : Nat} (hn : 0 < n) :
    Truncates (.ofMantissaAndAccuracy (m / n) (accuracyOfFraction (m % n) n)) ((m : ℚ) / n) := by
  have hpos : (0 : ℚ) < n := by exact_mod_cast hn
  have hsplit : ((m / n : Nat) : ℚ) * n + (m % n : Nat) = m := by
    exact_mod_cast Nat.div_add_mod' m n
  unfold accuracyOfFraction
  split
  case isTrue hzero =>
    rw [hzero, Nat.cast_zero, add_zero] at hsplit
    have hexact : (m : ℚ) / n = (m / n : Nat) := by rw [div_eq_iff hpos.ne', hsplit]
    rw [hexact]
    exact truncates_exact _
  case isFalse hzero =>
    have hrest : (0 : ℚ) < (m % n : Nat) := by exact_mod_cast Nat.pos_of_ne_zero hzero
    refine truncates_of_lt ?_ _
    rw [lt_div_iff₀ hpos]
    linarith

namespace Truncates

variable {em : ExtendedMantissa} {x : ℚ}

theorem shiftRightOne (h : Truncates em x) : Truncates em.shiftRightOne (x / 2) := by
  have hdigit : ((em.mantissa / 2 : Nat) : ℚ) * 2 + (em.mantissa % 2 : Nat) = em.mantissa := by
    exact_mod_cast Nat.div_add_mod' em.mantissa 2
  have hnonneg : (0 : ℚ) ≤ (em.mantissa % 2 : Nat) := Nat.cast_nonneg _
  refine ⟨?_, fun hbits => ?_⟩
  · change ((em.mantissa / 2 : Nat) : ℚ) ≤ x / 2
    linarith [h.le]
  · change ((em.mantissa / 2 : Nat) : ℚ) < x / 2
    rcases hbits with hround | hsticky
    · have hone : em.mantissa % 2 = 1 := by
        have hne : em.mantissa % 2 ≠ 0 := by simpa [ExtendedMantissa.shiftRightOne] using hround
        omega
      rw [hone, Nat.cast_one] at hdigit
      linarith [h.le]
    · have hbits : em.roundBit = true ∨ em.stickyBit = true := by
        simpa [ExtendedMantissa.shiftRightOne] using hsticky
      linarith [h.lt hbits]

theorem shiftRight (h : Truncates em x) (j : Nat) : Truncates (em >>> j) (x / 2 ^ j) := by
  induction j with
  | zero =>
    rw [pow_zero, div_one]
    exact h
  | succ j ih =>
    rw [pow_succ, ← div_div]
    exact ih.shiftRightOne

/-- Rounding does not lead beyond a whole number. -/
theorem roundedMantissa_le (h : Truncates em x) {n : Nat} (hn : x ≤ n) :
    em.roundedMantissa ≤ n := by
  have hle : em.mantissa ≤ n := by exact_mod_cast h.le.trans hn
  have hlt (hbits : em.roundBit = true ∨ em.stickyBit = true) : em.mantissa < n := by
    exact_mod_cast (h.lt hbits).trans_le hn
  rcases em with ⟨m, _ | _, _ | _⟩
  · exact hle
  · exact hle
  · have hlt : m < n := hlt (Or.inl rfl)
    change m + m % 2 ≤ n
    omega
  · exact hlt (Or.inl rfl)

end Truncates

/-! ### Rounding -/

theorem targetExponent_eq (t : ℤ) : Format.binary64.targetExponent t = max (t - 53) (-1074) := rfl

def shiftFor (m : Nat) (e : ℤ) : Nat :=
  (Format.binary64.targetExponent (totalExponent m e) - e).toNat

theorem mantissa_shiftToTargetExponent (m : Nat) (e : ℤ) (acc : Accuracy) :
    (shiftToTargetExponent Format.binary64 m e acc).1.mantissa = m / 2 ^ shiftFor m e := by
  change (ExtendedMantissa.ofMantissaAndAccuracy m acc >>> shiftFor m e).mantissa = _
  rw [mantissa_shiftRight, mantissa_ofMantissaAndAccuracy]

theorem exponent_shiftToTargetExponent (m : Nat) (e : ℤ) (acc : Accuracy) :
    (shiftToTargetExponent Format.binary64 m e acc).2 = e + shiftFor m e := rfl

/-- A number is rounded at a place where every representable bound of it is a whole number. -/
theorem targetExponent_le_of_le {m n : Nat} {e f : ℤ} (hm : m ≠ 0) (hn : n < 2 ^ 53)
    (hf : -1074 ≤ f) (h : (m : ℚ) * 2 ^ e ≤ n * 2 ^ f) :
    Format.binary64.targetExponent (totalExponent m e) ≤ f := by
  rw [targetExponent_eq, totalExponent, max_le_iff]
  refine ⟨?_, hf⟩
  by_contra hlt
  have hleading : (2 : ℚ) ^ m.log2 ≤ m := by exact_mod_cast Nat.log2_self_le hm
  have hdigits : (n : ℚ) < 2 ^ 53 := by exact_mod_cast hn
  have hpower : (2 : ℚ) ^ (53 + f) ≤ 2 ^ (m.log2 + e) :=
    zpow_le_zpow_right₀ one_le_two (by omega)
  refine lt_irrefl ((m : ℚ) * 2 ^ e) ?_
  calc (m : ℚ) * 2 ^ e ≤ n * 2 ^ f := h
    _ < 2 ^ 53 * 2 ^ f := mul_lt_mul_of_pos_right hdigits (two_zpow_pos f)
    _ = 2 ^ (53 + f) := (two_zpow_add 53 f).symm
    _ ≤ 2 ^ (m.log2 + e) := hpower
    _ = 2 ^ m.log2 * 2 ^ e := by rw [two_zpow_add, zpow_natCast]
    _ ≤ m * 2 ^ e := mul_le_mul_of_nonneg_right hleading (two_zpow_pos e).le

/-- The same for the exponent that the shift leads to. -/
theorem add_shiftFor_le_of_le {m n : Nat} {e f : ℤ} (hn : n < 2 ^ 53) (hf : -1074 ≤ f)
    (h : (m : ℚ) * 2 ^ e ≤ n * 2 ^ f)
    (hfits : e ≤ Format.binary64.targetExponent (totalExponent m e)) : e + shiftFor m e ≤ f := by
  have hreached : e + shiftFor m e = Format.binary64.targetExponent (totalExponent m e) := by
    unfold shiftFor
    omega
  rw [hreached]
  by_cases hm : m = 0
  · subst hm
    rw [targetExponent_eq, totalExponent, Nat.log2_zero] at hfits ⊢
    omega
  · exact targetExponent_le_of_le hm hn hf h

section Rounding

variable {m : Nat} {e : ℤ} {acc : Accuracy} {x q : ℚ}
  (htruncates : Truncates (.ofMantissaAndAccuracy m acc) x) (hq : Representable q)
  (hx : x * 2 ^ e ≤ q)
  (hfits : acc = .exact ∨ e ≤ Format.binary64.targetExponent (totalExponent m e))
include htruncates hq hx hfits

/-- The first of two roundings.  The mantissa `m` comes from the exact mantissa `x`. -/
theorem roundedMantissa_mul_le :
    ((shiftToTargetExponent Format.binary64 m e acc).1.roundedMantissa : ℚ) *
      2 ^ (e + shiftFor m e) ≤ q := by
  obtain ⟨n, f, hn, hf, -, rfl⟩ := hq
  have hm : (m : ℚ) * 2 ^ e ≤ n * 2 ^ f := by
    have hle := htruncates.le
    rw [mantissa_ofMantissaAndAccuracy] at hle
    exact (mul_le_mul_of_nonneg_right hle (two_zpow_pos e).le).trans hx
  change ((ExtendedMantissa.ofMantissaAndAccuracy m acc >>> shiftFor m e).roundedMantissa : ℚ) *
    2 ^ (e + shiftFor m e) ≤ _
  by_cases hshift : e ≤ Format.binary64.targetExponent (totalExponent m e)
  · -- the bound is a whole number at the place of rounding
    have hend := add_shiftFor_le_of_le hn hf hm hshift
    obtain ⟨i, hi⟩ : ∃ i : Nat, f = e + shiftFor m e + i :=
      ⟨(f - (e + shiftFor m e)).toNat, by omega⟩
    have hwhole : (n : ℚ) * 2 ^ f = ((n * 2 ^ i : Nat) : ℚ) * 2 ^ (e + shiftFor m e) := by
      rw [hi, mul_two_zpow_add_natCast]
      push_cast
      rfl
    rw [hwhole] at hx ⊢
    have hle : x / 2 ^ shiftFor m e ≤ (n * 2 ^ i : Nat) := by
      rw [mul_two_zpow_add_natCast] at hx
      rw [div_le_iff₀ (by positivity)]
      exact le_of_mul_le_mul_right hx (two_zpow_pos e)
    have hrounded := (htruncates.shiftRight (shiftFor m e)).roundedMantissa_le hle
    exact mul_le_mul_of_nonneg_right (by exact_mod_cast hrounded) (two_zpow_pos _).le
  · -- nothing is shifted out
    obtain rfl := hfits.resolve_right hshift
    have hnone : shiftFor m e = 0 := by
      unfold shiftFor
      omega
    rw [hnone, Nat.cast_zero, add_zero]
    exact hm

/-- A representable bound outlives both steps of rounding: the second one only leaves digits out. -/
theorem upTo_roundWithAccuracy (s : Sign) :
    UpTo q (roundWithAccuracy Format.binary64 s m e acc) := by
  have hfirst := roundedMantissa_mul_le htruncates hq hx hfits
  unfold roundWithAccuracy
  dsimp only
  rw [mantissa_shiftToTargetExponent, exponent_shiftToTargetExponent,
    exponent_shiftToTargetExponent]
  generalize (shiftToTargetExponent Format.binary64 m e acc).1.roundedMantissa = r at hfirst ⊢
  generalize e + (shiftFor m e : ℤ) = t at hfirst ⊢
  split
  case isTrue => exact hq.nonneg
  case isFalse =>
    have hshift : shiftFor r t = (max (totalExponent r t - 53) (-1074) - t).toNat := rfl
    refine ⟨by omega, ?_⟩
    rw [mul_two_zpow_add_natCast]
    refine le_trans (mul_le_mul_of_nonneg_right ?_ (two_zpow_pos t).le) hfirst
    exact_mod_cast Nat.div_mul_le_self r (2 ^ shiftFor r t)

end Rounding

theorem upTo_round {m : Nat} {e : ℤ} {q : ℚ} (s : Sign) (hq : Representable q)
    (h : (m : ℚ) * 2 ^ e ≤ q) : UpTo q (UnpackedFloat.round Format.binary64 s m e) := by
  unfold UnpackedFloat.round decreaseExponent
  dsimp only
  generalize (e - Format.binary64.targetExponent (totalExponent m e)).toNat = j
  refine upTo_roundWithAccuracy (truncates_exact _) hq ?_ (Or.inl rfl) s
  have hsame := mul_two_zpow_add_natCast m (e - j) j
  rw [sub_add_cancel] at hsame
  rw [Nat.shiftLeft_eq]
  push_cast
  rw [← hsame]
  exact h

theorem upTo_normalize {m e : ℤ} {q : ℚ} (s : Sign) (hq : Representable q)
    (h : (m.natAbs : ℚ) * 2 ^ e ≤ q) : UpTo q (normalize Format.binary64 m e s) := by
  unfold UnpackedFloat.normalize
  rcases hm : compare m 0 with _ | _ | _
  · have hneg : (-m).toNat = m.natAbs := by
      rw [compare_lt_iff_lt] at hm
      omega
    rw [← hneg] at h
    exact upTo_round _ hq h
  · exact hq.nonneg
  · have hpos : m.toNat = m.natAbs := by
      rw [compare_gt_iff_gt] at hm
      omega
    rw [← hpos] at h
    exact upTo_round _ hq h

theorem natAbs_apply (s : Sign) (n : ℤ) : (s.apply n).natAbs = n.natAbs := by
  cases s
  · exact Int.natAbs_neg n
  · rfl

/-- Two numbers are added at the smaller of their exponents. -/
theorem upTo_normalize_of_aligned {x : ℤ} {m n : Nat} {e f : ℤ} {p q r : ℚ} (s : Sign)
    (hx : x.natAbs ≤ m <<< (e - min e f).toNat + n <<< (f - min e f).toNat)
    (hm : (m : ℚ) * 2 ^ e ≤ p) (hn : (n : ℚ) * 2 ^ f ≤ q) (hr : Representable r)
    (h : p + q ≤ r) : UpTo r (normalize Format.binary64 x (min e f) s) := by
  refine upTo_normalize s hr (le_trans ?_ ((add_le_add hm hn).trans h))
  rw [← shiftLeft_mul_two_zpow m (min_le_left e f), ← shiftLeft_mul_two_zpow n (min_le_right e f),
    ← add_mul]
  exact mul_le_mul_of_nonneg_right (by exact_mod_cast hx) (two_zpow_pos _).le

/-! ### Operations -/

namespace UpTo

variable {p q r : ℚ} {a b : UnpackedFloat}

theorem nonneg (h : UpTo q a) : 0 ≤ q := by
  cases a with
  | zero => exact h
  | finite s m e hm => exact (mul_two_zpow_nonneg m e).trans h.2
  | infinity | notANumber => cases h

theorem isFinite (h : UpTo q a) : a.isFinite = true := by
  cases a with
  | zero | finite => rfl
  | infinity | notANumber => cases h

theorem mono (h : UpTo q a) (hqr : q ≤ r) : UpTo r a := by
  cases a with
  | zero => exact le_trans h hqr
  | finite => exact ⟨h.1, h.2.trans hqr⟩
  | infinity | notANumber => cases h

theorem mul (ha : UpTo p a) (hb : UpTo q b) (hr : Representable r) (h : p * q ≤ r) :
    UpTo r (UnpackedFloat.mul Format.binary64 a b) := by
  cases a with
  | infinity | notANumber => cases ha
  | zero =>
    cases b with
    | infinity | notANumber => cases hb
    | zero | finite => exact hr.nonneg
  | finite s m e hm =>
    cases b with
    | infinity | notANumber => cases hb
    | zero => exact hr.nonneg
    | finite t n f hn =>
      refine upTo_roundWithAccuracy (truncates_exact _) hr ?_ (Or.inl rfl) _
      have hproduct : ((m * n : Nat) : ℚ) * 2 ^ (e + f) = m * 2 ^ e * (n * 2 ^ f) := by
        rw [two_zpow_add]
        push_cast
        ring
      rw [hproduct]
      exact (mul_le_mul ha.2 hb.2 (mul_two_zpow_nonneg n f) ha.nonneg).trans h

theorem add (ha : UpTo p a) (hb : UpTo q b) (hr : Representable r) (h : p + q ≤ r) :
    UpTo r (UnpackedFloat.add Format.binary64 a b) := by
  cases a with
  | infinity | notANumber => cases ha
  | zero s =>
    cases b with
    | infinity | notANumber => cases hb
    | zero t => cases s <;> cases t <;> exact hr.nonneg
    | finite => exact hb.mono ((le_add_of_nonneg_left ha.nonneg).trans h)
  | finite s m e hm =>
    cases b with
    | infinity | notANumber => cases hb
    | zero => exact ha.mono ((le_add_of_nonneg_right hb.nonneg).trans h)
    | finite t n f hn =>
      refine upTo_normalize_of_aligned _ ((Int.natAbs_add_le _ _).trans ?_) ha.2 hb.2 hr h
      rw [natAbs_apply, natAbs_apply]
      rfl

theorem neg (h : UpTo q a) : UpTo q a.neg := by
  cases a with
  | zero | finite => exact h
  | infinity | notANumber => cases h

theorem sub (ha : UpTo p a) (hb : UpTo q b) (hr : Representable r) (h : p + q ≤ r) :
    UpTo r (UnpackedFloat.sub Format.binary64 a b) := by
  rw [unpacked_sub_eq_add_neg]
  exact ha.add hb.neg hr h

end UpTo

/-- A quotient has at least the digits that the divisor leaves. -/
theorem log2_le_log2_div {m n j : Nat} (hm : m ≠ 0) (hn : 0 < n) :
    m.log2 + j ≤ (m * 2 ^ j / n).log2 + (n.log2 + 1) := by
  by_cases hsmall : m.log2 + j < n.log2 + 1
  · omega
  · have hpower : 2 ^ (m.log2 + j - (n.log2 + 1)) ≤ m * 2 ^ j / n := by
      rw [Nat.le_div_iff_mul_le hn]
      calc 2 ^ (m.log2 + j - (n.log2 + 1)) * n
          ≤ 2 ^ (m.log2 + j - (n.log2 + 1)) * 2 ^ (n.log2 + 1) :=
            Nat.mul_le_mul_left _ Nat.lt_log2_self.le
        _ = 2 ^ m.log2 * 2 ^ j := by
            rw [← Nat.pow_add, ← Nat.pow_add]
            congr 1
            omega
        _ ≤ m * 2 ^ j := Nat.mul_le_mul_right _ (Nat.log2_self_le hm)
    have hne : m * 2 ^ j / n ≠ 0 := ((Nat.two_pow_pos _).trans_le hpower).ne'
    have hlog := (Nat.le_log2 hne).mpr hpower
    omega

def unpackedSize : UnpackedFloat → ℚ
  | .finite _ m e _ => m * 2 ^ e
  | _ => 0

/-- The quotient is truncated before it is rounded, and keeps enough digits for that to do no
    harm. -/
theorem UpTo.div {p r : ℚ} {a b : UnpackedFloat} (ha : UpTo p a) (hr : Representable r)
    (hb : 0 < unpackedSize b) (h : p ≤ r * unpackedSize b) :
    UpTo r (UnpackedFloat.div Format.binary64 a b) := by
  rcases b with _ | _ | _ | ⟨t, n, f, hn⟩
  case infinity | notANumber | zero => exact absurd hb (lt_irrefl 0)
  cases a with
  | infinity | notANumber => cases ha
  | zero => exact hr.nonneg
  | finite s m e hm =>
    change UpTo r (roundWithAccuracy Format.binary64 _ _ _ _)
    generalize htarget : min (e - f) (Format.binary64.targetExponent
      (totalExponent m e - totalExponent n f)) = target
    have hj : e = target + (e - f - target).toNat + f := by omega
    generalize (e - f - target).toNat = j at hj ⊢
    refine upTo_roundWithAccuracy (truncates_div _ hn) hr ?_ (Or.inr ?_) _
    · have hne : (n : ℚ) ≠ 0 := by exact_mod_cast hn.ne'
      have hexact : ((m <<< j : Nat) : ℚ) / n * 2 ^ target = m * 2 ^ e / (n * 2 ^ f) := by
        rw [hj, two_zpow_add, two_zpow_add, zpow_natCast, Nat.shiftLeft_eq]
        push_cast
        field_simp
      rw [hexact]
      exact (div_le_iff₀ hb).mpr (ha.2.trans h)
    · have hlog := log2_le_log2_div (j := j) hm.ne' hn
      rw [targetExponent_eq, totalExponent] at htarget ⊢
      rw [totalExponent] at htarget
      rw [Nat.shiftLeft_eq]
      omega

end ParticleSwarm.Double
