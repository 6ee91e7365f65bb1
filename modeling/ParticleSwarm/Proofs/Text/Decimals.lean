import Mathlib
import ParticleSwarm.Text.Unsigned

/-!
# The 64-bit unsigned decimals

A text denotes a number when it consists of digits, at least one of them and perhaps with a plus
sign in front, that write the number in base ten.  Reading succeeds exactly on the texts that denote
a number of 64 bits, and gives this number.
-/

namespace ParticleSwarm.Text

/-- The number that digits write, of which the last one counts the ones. -/
def numeral (digits : List Char) : Nat :=
  Nat.ofDigits 10 (digits.reverse.map fun c => c.toNat - '0'.toNat)

/-- Digits for a 64-bit number, perhaps with a plus sign in front. -/
def Denotes (s : String) (value : UInt64) : Prop :=
  ∃ digits, (s.toList = digits ∨ s.toList = '+' :: digits) ∧ digits ≠ [] ∧
    (∀ c ∈ digits, c.isDigit) ∧ numeral digits = value.toNat

@[simp] theorem numeral_nil : numeral [] = 0 := rfl

theorem numeral_cons (c : Char) (digits : List Char) :
    numeral (c :: digits) = (c.toNat - '0'.toNat) * 10 ^ digits.length + numeral digits := by
  rw [numeral, List.reverse_cons, List.map_append, Nat.ofDigits_append, List.map_singleton,
    Nat.ofDigits_singleton, List.length_map, List.length_reverse, numeral]
  ring

/-- Reading digits goes on exactly as long as there are digits and the number fits. -/
theorem readDigits_eq_ok_iff {start value : UInt64} {digits : List Char} :
    readDigits start digits = .ok value ↔
      (∀ c ∈ digits, c.isDigit) ∧
        start.toNat * 10 ^ digits.length + numeral digits = value.toNat := by
  induction digits generalizing start with
  | nil => simp [readDigits, UInt64.toNat_inj]
  | cons c digits ih =>
    rw [readDigits, numeral_cons]
    let next := 10 * start.toNat + (c.toNat - '0'.toNat)
    have hnext : start.toNat * 10 ^ (c :: digits).length +
        ((c.toNat - '0'.toNat) * 10 ^ digits.length + numeral digits) =
          next * 10 ^ digits.length + numeral digits := by
      simp only [next, List.length_cons]
      ring
    rw [hnext]
    by_cases hdigit : c.isDigit
    · rw [if_pos hdigit]
      change (if next < UInt64.size then readDigits (.ofNat next) digits else .error .tooLarge) =
        .ok value ↔ _
      by_cases hfits : next < UInt64.size
      · rw [if_pos hfits, ih, UInt64.toNat_ofNat_of_lt' hfits]
        simp [hdigit]
      · -- the number only grows, so what does not fit now never will
        have hgrows : next ≤ next * 10 ^ digits.length :=
          Nat.le_mul_of_pos_right next (Nat.pow_pos (by decide))
        have hvalue : value.toNat < UInt64.size := value.toNat_lt_size
        have hne : next * 10 ^ digits.length + numeral digits ≠ value.toNat := by omega
        rw [if_neg hfits]
        simp [hne]
    · simp [hdigit]

theorem readUnsigned_eq_ok_iff {s : String} {value : UInt64} :
    readUnsigned s = .ok value ↔ Denotes s value := by
  have hdigits (digits : List Char) : readDigits 0 digits = .ok value ↔
      (∀ c ∈ digits, c.isDigit) ∧ numeral digits = value.toNat := by
    simp [readDigits_eq_ok_iff]
  unfold readUnsigned Denotes
  split
  · next h => simp [h]
  · next h => simp [h]
  · next digits hne h =>
    rw [hdigits]
    constructor
    · exact fun hread => ⟨digits, .inr h, hne, hread⟩
    · rintro ⟨digits', hsame | hsame, -, hall, hvalue⟩
      · -- a plus sign is no digit
        rw [h] at hsame
        have hplus : '+' ∈ digits' := hsame ▸ List.mem_cons_self
        exact absurd (hall '+' hplus) (by decide)
      · rw [h, List.cons_inj_right] at hsame
        rw [hsame]
        exact ⟨hall, hvalue⟩
  · next hempty hplus hsigned =>
    rw [hdigits]
    constructor
    · exact fun hread => ⟨s.toList, .inl rfl, hempty, hread⟩
    · rintro ⟨digits, rfl | hsame, -, hread⟩
      · exact hread
      · exact absurd hsame (hsigned digits)

/-- The largest number that fits, and the next one. -/
example : readUnsigned "+0018446744073709551615" = .ok 18446744073709551615 ∧
    readUnsigned "18446744073709551616" = .error .tooLarge := by
  decide +kernel

end ParticleSwarm.Text
