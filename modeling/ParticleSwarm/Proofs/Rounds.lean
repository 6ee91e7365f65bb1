import ParticleSwarm.Proofs.Attempt

/-!
# Rounds, one after the other

`rounds` carries out a numbered attempt a number of times and collects what it gives, up to the first
failure.  The steps of a run are rounds, and so are the runs of a batch.  Rounds that all succeed end
where the last one does; otherwise some round fails behind others that succeed, and the rounds end
where it does.
-/

namespace ParticleSwarm.Attempt

variable {s α β : Type} {round : Nat → Attempt s α} {first count : Nat} {st : s} {a : α}
  {as : List α} {e : SearchError}

/-- A number of rounds, numbered from `first`. -/
def rounds (round : Nat → Attempt s α) (count first : Nat) : Attempt s (List α) :=
  match count with
  | 0 => return []
  | count + 1 => do
    let a ← round first
    let rest ← rounds round count (first + 1)
    return a :: rest

def afterRounds (round : Nat → Attempt s α) (first : Nat) (st : s) : Nat → s
  | 0 => st
  | n + 1 => (round (first + n) (afterRounds round first st n)).2

/-- As many rounds as there are values succeed, and they give these values. -/
def RoundsGive (round : Nat → Attempt s α) (first : Nat) (st : s) (as : List α) : Prop :=
  ∀ k (hk : k < as.length), (round (first + k) (afterRounds round first st k)).1 = .ok as[k]

theorem afterRounds_succ (round : Nat → Attempt s α) (first : Nat) (st : s) (n : Nat) :
    afterRounds round first st (n + 1) = afterRounds round (first + 1) (round first st).2 n := by
  induction n with
  | zero => rfl
  | succ n ih =>
    have hnumber : first + (n + 1) = first + 1 + n := by omega
    rw [afterRounds, ih, afterRounds, hnumber]

theorem RoundsGive.nil (round : Nat → Attempt s α) (first : Nat) (st : s) :
    RoundsGive round first st [] :=
  fun k hk => absurd hk (Nat.not_lt_zero k)

theorem RoundsGive.cons (ha : (round first st).1 = .ok a)
    (has : RoundsGive round (first + 1) (round first st).2 as) :
    RoundsGive round first st (a :: as) := by
  intro k hk
  cases k with
  | zero => exact ha
  | succ k =>
    have hnumber : first + (k + 1) = first + 1 + k := by omega
    rw [afterRounds_succ, hnumber]
    exact has k (Nat.lt_of_succ_lt_succ hk)

/-- Rounds that succeed end where the last of them does. -/
theorem rounds_eq_ok (h : (rounds round count first st).1 = .ok as) :
    as.length = count ∧ RoundsGive round first st as ∧
      (rounds round count first st).2 = afterRounds round first st count := by
  induction count generalizing first st as with
  | zero =>
    cases h
    exact ⟨rfl, .nil round first st, rfl⟩
  | succ count ih =>
    rw [rounds] at h ⊢
    obtain ⟨a, ha, h⟩ := bind_fst_eq_ok.mp h
    obtain ⟨rest, hrest, h⟩ := bind_fst_eq_ok.mp h
    cases h
    obtain ⟨hlength, hgive, hend⟩ := ih hrest
    refine ⟨congrArg (· + 1) hlength, hgive.cons ha, ?_⟩
    rw [bind_of_ok ha, bind_of_ok hrest, afterRounds_succ]
    exact hend

/-- Rounds that fail end where the first of them does that fails. -/
theorem rounds_eq_error (h : (rounds round count first st).1 = .error e) :
    ∃ as : List α, as.length < count ∧ RoundsGive round first st as ∧
      (round (first + as.length) (afterRounds round first st as.length)).1 = .error e ∧
      (rounds round count first st).2 = afterRounds round first st (as.length + 1) := by
  induction count generalizing first st with
  | zero => cases h
  | succ count ih =>
    rw [rounds] at h ⊢
    rcases bind_fst_eq_error.mp h with ha | ⟨a, ha, h⟩
    · refine ⟨[], Nat.succ_pos count, .nil round first st, ha, ?_⟩
      rw [bind_of_error ha]
      rfl
    · rcases bind_fst_eq_error.mp h with hrest | ⟨rest, -, h⟩
      · obtain ⟨as, hlength, hgive, hfails, hend⟩ := ih hrest
        have hnumber : first + (as.length + 1) = first + 1 + as.length := by omega
        refine ⟨a :: as, Nat.succ_lt_succ hlength, hgive.cons ha, ?_, ?_⟩
        · rw [List.length_cons, afterRounds_succ, hnumber]
          exact hfails
        · rw [bind_of_ok ha, bind_of_error hrest, List.length_cons, afterRounds_succ]
          exact hend
      · cases h

/-- What each round appends to a record, the rounds append one after the other. -/
theorem record_afterRounds {record : s → List β} {part : Nat → List β} {n : Nat}
    (h : ∀ k < n, record (afterRounds round first st (k + 1)) =
      record (afterRounds round first st k) ++ part k) :
    record (afterRounds round first st n) = record st ++ (List.range n).flatMap part := by
  induction n with
  | zero => simp [afterRounds]
  | succ n ih =>
    rw [h n (Nat.lt_succ_self n), ih fun k hk => h k (Nat.lt_succ_of_lt hk)]
    simp [List.range_succ, List.flatMap_append]

end ParticleSwarm.Attempt
