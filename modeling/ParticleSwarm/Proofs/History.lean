import Mathlib.Data.List.Chain
import ParticleSwarm.History
import ParticleSwarm.Proofs.Double.Order

/-!
# Histories that never go up

A history is checked by comparing each cost with the one before it.  That settles the comparison of
every cost with every earlier one, though the order of doubles is not total: `≤` relates a NaN to
nothing and is transitive all the same.  In a history of two costs or more each of them is compared,
so none of them is a NaN once the check has passed.
-/

namespace ParticleSwarm.History

def observed (costs : List Float) : History := costs.foldl observe empty

theorem toList_foldl_observe (h : History) (costs : List Float) :
    (costs.foldl observe h).toList = h.toList ++ costs := by
  induction costs generalizing h with
  | nil => simp
  | cons cost costs ih => simp [ih]

@[simp] theorem toList_observed (costs : List Float) : (observed costs).toList = costs := by
  simp [observed, toList_foldl_observe]

/-! ### From neighbours to all pairs -/

instance : Trans (fun a b : Float => b ≤ a) (fun a b => b ≤ a) (fun a b => b ≤ a) where
  trans hab hbc := Double.le_of_le_of_le hbc hab

theorem nonIncreasing_iff {costs : List Float} :
    nonIncreasing costs = true ↔ costs.IsChain fun a b => b ≤ a := by
  induction costs with
  | nil => simp [nonIncreasing]
  | cons a rest ih =>
    cases rest with
    | nil => simp [nonIncreasing]
    | cons b rest =>
      rw [nonIncreasing, List.isChain_cons_cons, ← ih]
      simp

/-- Neighbours decide about all pairs, since the order of doubles is transitive, NaN included. -/
theorem nonIncreasing_iff_pairwise {costs : List Float} :
    nonIncreasing costs = true ↔ costs.Pairwise fun a b => b ≤ a :=
  nonIncreasing_iff.trans List.isChain_iff_pairwise

theorem nonIncreasing_iff_getElem {costs : List Float} :
    nonIncreasing costs = true ↔
      ∀ i j, (hij : i < j) → (hj : j < costs.length) → costs[j] ≤ costs[i] := by
  rw [nonIncreasing_iff_pairwise, List.pairwise_iff_getElem]
  constructor
  · intro h i j hij hj
    exact h i j (hij.trans hj) hj hij
  · intro h i j _ hj hij
    exact h i j hij hj

/-- Each of two costs or more is compared with another one, and no NaN passes a comparison. -/
theorem isNaN_eq_false_of_nonIncreasing {costs : List Float} (h : nonIncreasing costs = true)
    (hsize : 2 ≤ costs.length) {v : Float} (hv : v ∈ costs) : v.isNaN = false := by
  cases costs with
  | nil => cases hv
  | cons first rest =>
    obtain ⟨hfirst, -⟩ := List.pairwise_cons.mp (nonIncreasing_iff_pairwise.mp h)
    cases hv with
    | tail _ hv => exact (Double.isNaN_eq_false_of_le (hfirst v hv)).1
    | head =>
      -- nothing stands before the first cost, but the second one is compared with it
      cases rest with
      | nil => simp at hsize
      | cons second rest =>
        exact (Double.isNaN_eq_false_of_le (hfirst second List.mem_cons_self)).2

/-! ### One more cost -/

/-- A cost that is recorded has to be compared with the last one only. -/
theorem isNonIncreasing_observe_iff (h : History) (cost : Float) :
    (h.observe cost).isNonIncreasing = true ↔
      h.isNonIncreasing = true ∧ ∀ last ∈ h.last?, cost ≤ last := by
  simp only [isNonIncreasing, nonIncreasing_iff, toList_observe, List.isChain_append,
    getLast?_toList]
  simp

theorem last?_eq_none_iff (h : History) : h.last? = none ↔ h.isEmpty = true := by
  rw [← getLast?_toList, ← isEmpty_toList, List.getLast?_eq_none_iff, List.isEmpty_iff]

/-- **Neighbours decide for all pairs.**  Whatever costs have been observed, the history is accepted
    exactly when every cost is at most every earlier one.  So a history of two costs or more with a
    NaN among them is never accepted, and a history that is accepted stays so with one more cost
    exactly when it is empty or that cost is at most the last one. -/
theorem isNonIncreasing_compares_all_pairs (costs : List Float) :
    ((observed costs).isNonIncreasing = true ↔
      ∀ i j, (hij : i < j) → (hj : j < costs.length) → costs[j] ≤ costs[i]) ∧
    (2 ≤ (observed costs).size → (∃ v ∈ costs, v.isNaN = true) →
      (observed costs).isNonIncreasing = false) ∧
    ∀ cost, (observed costs).isNonIncreasing = true →
      (((observed costs).observe cost).isNonIncreasing = true ↔
        (observed costs).isEmpty = true ∨
          ∃ last, (observed costs).last? = some last ∧ cost ≤ last) := by
  refine ⟨?_, ?_, ?_⟩
  · rw [isNonIncreasing, toList_observed, nonIncreasing_iff_getElem]
  · rintro hsize ⟨v, hv, hnan⟩
    rw [← length_toList, toList_observed] at hsize
    rw [isNonIncreasing, toList_observed]
    refine Bool.eq_false_iff.mpr fun haccepted => ?_
    rw [isNaN_eq_false_of_nonIncreasing haccepted hsize hv] at hnan
    cases hnan
  · intro cost haccepted
    rw [isNonIncreasing_observe_iff, and_iff_right haccepted, ← last?_eq_none_iff]
    cases (observed costs).last? with
    | none => simp
    | some last => simp

/-- Falling to a zero and on to the other zero is no rise, and back again is none either.  A NaN is
    accepted as the only cost, and nothing is accepted after it. -/
theorem zeros_compare_all_pairs :
    let nan := Float.ofBits 0x7ff8000000000000
    let negZero := Float.ofBits 0x8000000000000000
    let h := observed [Fitness.worst, 2, negZero, 0]
    h.isNonIncreasing = true ∧ (0 : Float) ≤ 2 ∧
    (h.observe negZero).isNonIncreasing = true ∧
    (observed [Fitness.worst, nan]).isNonIncreasing = false ∧
    (observed [nan]).isNonIncreasing = true ∧
    ((observed [nan]).observe negZero).isNonIncreasing = false := by
  intro nan negZero h
  have haccepted : h.isNonIncreasing = true := by decide +kernel
  have halone : (observed [nan]).isNonIncreasing = true := by decide +kernel
  obtain ⟨hpairs, -, hobserve⟩ :=
    isNonIncreasing_compares_all_pairs [Fitness.worst, 2, negZero, 0]
  obtain ⟨-, hnan, -⟩ := isNonIncreasing_compares_all_pairs [Fitness.worst, nan]
  obtain ⟨-, -, hafter⟩ := isNonIncreasing_compares_all_pairs [nan]
  refine ⟨haccepted, ?_, ?_, ?_, halone, ?_⟩
  · exact hpairs.mp haccepted 1 3 (by decide) (by decide)
  · exact (hobserve negZero haccepted).mpr (Or.inr ⟨0, rfl, by decide +kernel⟩)
  · exact hnan (by decide) ⟨nan, by simp, by decide +kernel⟩
  · refine Bool.eq_false_iff.mpr fun hmore => ?_
    rcases (hafter negZero halone).mp hmore with hempty | ⟨last, hlast, hle⟩
    · cases hempty
    · cases hlast
      revert hle
      decide +kernel

end ParticleSwarm.History
