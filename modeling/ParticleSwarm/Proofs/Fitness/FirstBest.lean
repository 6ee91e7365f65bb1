import ParticleSwarm.Proofs.Double.Order

/-!
# Ranks, and the first of the best

A rank is never NaN, so ranks are ordered like the places of their doubles, and the usual laws of a
linear order hold for them.  `firstBest?` says what a search is after: the earliest candidate that
no other one ranks strictly before, and `IsFirstLeast` says at which place it stands.  `prefer`
replaces a candidate only by one that ranks strictly before it, and preferring through a list ends at
the first of the best; so does `best?`, which begins with no candidate at all.
-/

namespace ParticleSwarm.Fitness

open Float.Model Float.Model.UnpackedFloat

/-! ### The order of ranks -/

theorem isNaN_worst : worst.isNaN = false := by decide

theorem isFinite_worst : worst.isFinite = false := by decide

theorem isNaN_rank (v : Float) : (rank v).isNaN = false := by
  by_cases h : v.isFinite
  · rw [rank_of_isFinite h]
    exact Double.isNaN_eq_false_of_isFinite h
  · rw [rank_of_not_isFinite h]
    exact isNaN_worst

@[simp] theorem rank_worst : rank worst = worst :=
  rank_of_not_isFinite (by rw [isFinite_worst]; exact Bool.false_ne_true)

@[simp] theorem rank_rank (v : Float) : rank (rank v) = rank v := by
  by_cases h : v.isFinite
  · rw [rank_of_isFinite h, rank_of_isFinite h]
  · rw [rank_of_not_isFinite h, rank_worst]

def level (v : Float) : Double.Place := Double.place (rank v)

theorem rank_lt_rank_iff {v w : Float} : rank v < rank w ↔ level v < level w :=
  Double.lt_iff_place (isNaN_rank v) (isNaN_rank w)

theorem rank_le_rank_iff {v w : Float} : rank v ≤ rank w ↔ level v ≤ level w :=
  Double.le_iff_place (isNaN_rank v) (isNaN_rank w)

theorem not_rank_lt_rank_iff {v w : Float} : ¬ rank v < rank w ↔ rank w ≤ rank v :=
  Double.not_lt_iff_le (isNaN_rank v) (isNaN_rank w)

theorem rank_le_rank_self (v : Float) : rank v ≤ rank v := Double.le_self (isNaN_rank v)

theorem level_le_level_worst (v : Float) : level v ≤ level worst := by
  by_cases h : v.isFinite
  · have hnan := Double.isNaN_eq_false_of_isFinite h
    rw [level, rank_of_isFinite h]
    exact ((Double.unpacked_isFinite_iff hnan).mp h).2.le
  · rw [level, level, rank_of_not_isFinite h, rank_worst]

theorem rank_le_worst (v : Float) : rank v ≤ worst := by
  rw [← rank_worst, rank_le_rank_iff]
  exact level_le_level_worst v

/-- What ranks strictly before something is finite. -/
theorem isFinite_of_rank_lt_rank {v w : Float} (h : rank v < rank w) : v.isFinite = true := by
  by_contra hv
  rw [rank_of_not_isFinite hv, ← rank_worst, rank_lt_rank_iff] at h
  exact absurd h (not_lt.mpr (level_le_level_worst w))

theorem lt_worst_of_isFinite {v : Float} (h : v.isFinite = true) : v < worst := by
  have hnan := Double.isNaN_eq_false_of_isFinite h
  rw [Double.lt_iff_place hnan isNaN_worst]
  exact ((Double.unpacked_isFinite_iff hnan).mp h).2

theorem not_worst_lt {v : Float} (h : v ≤ worst) : ¬ worst < v := by
  obtain ⟨hv, hworst⟩ := Double.isNaN_eq_false_of_le h
  exact (Double.not_lt_iff_le hworst hv).mpr h

theorem rank_eq_worst_of_worst_le {v : Float} (h : worst ≤ rank v) : rank v = worst := by
  by_contra hne
  have hv : v.isFinite := by
    by_contra hv
    exact hne (rank_of_not_isFinite hv)
  rw [rank_of_isFinite hv] at h
  have hnan := Double.isNaN_eq_false_of_isFinite hv
  exact (Double.not_lt_iff_le hnan isNaN_worst).mpr h (lt_worst_of_isFinite hv)

def IsRank (v : Float) : Prop := v.isFinite = true ∨ v = worst

theorem isRank_rank (v : Float) : IsRank (rank v) := by
  by_cases h : v.isFinite = true
  · rw [rank_of_isFinite h]
    exact Or.inl h
  · exact Or.inr (rank_of_not_isFinite h)

namespace IsRank

variable {v : Float}

theorem rank_eq (h : IsRank v) : rank v = v := by
  rcases h with hfinite | rfl
  · exact rank_of_isFinite hfinite
  · exact rank_worst

theorem le_self (h : IsRank v) : v ≤ v := by
  rw [← h.rank_eq]
  exact rank_le_rank_self v

theorem le_worst (h : IsRank v) : v ≤ worst := by
  rw [← h.rank_eq]
  exact rank_le_worst v

theorem not_lt_self (h : IsRank v) : ¬ v < v := by
  rw [← h.rank_eq]
  exact not_rank_lt_rank_iff.mpr (rank_le_rank_self v)

theorem not_lt_iff_le (h : IsRank v) {w : Float} : ¬ rank w < v ↔ v ≤ rank w := by
  rw [← h.rank_eq]
  exact not_rank_lt_rank_iff

end IsRank

/-! ### The first of the best -/

section FirstBest

variable {α : Type} (fitness : α → Float)

/-- The earliest candidate that no candidate ranks strictly before. -/
def firstBest? (candidates : List α) : Option α :=
  candidates.find? fun a =>
    candidates.all fun b => !decide (rank (fitness b) < rank (fitness a))

def prefer (kept next : α) : α :=
  if rank (fitness next) < rank (fitness kept) then next else kept

variable {fitness}

theorem prefer_of_lt {kept next : α} (h : rank (fitness next) < rank (fitness kept)) :
    prefer fitness kept next = next := if_pos h

theorem prefer_of_not_lt {kept next : α} (h : ¬ rank (fitness next) < rank (fitness kept)) :
    prefer fitness kept next = kept := if_neg h

/-- The next candidate is refused if the one kept so far ranks no worse. -/
theorem prefer_eq_ite (kept next : α) :
    prefer fitness kept next =
      if rank (fitness kept) ≤ rank (fitness next) then kept else next := by
  simp only [prefer, ← not_rank_lt_rank_iff, ite_not]

/-- One of the candidates, which ranks strictly before all earlier ones, and which no later one ranks
    strictly before. -/
def IsFirstBest (fitness : α → Float) (best : α) (candidates : List α) : Prop :=
  ∃ before after, candidates = before ++ best :: after ∧
    (∀ b ∈ before, rank (fitness best) < rank (fitness b)) ∧
    ∀ b ∈ after, rank (fitness best) ≤ rank (fitness b)

variable {best kept next : α} {candidates rest : List α}

theorem IsFirstBest.le_of_mem (h : IsFirstBest fitness best candidates) {b : α}
    (hb : b ∈ candidates) : rank (fitness best) ≤ rank (fitness b) := by
  obtain ⟨before, after, rfl, hbefore, hafter⟩ := h
  rcases List.mem_append.mp hb with hb | hb
  · exact Double.le_of_lt (hbefore b hb)
  · rcases List.mem_cons.mp hb with rfl | hb
    · exact rank_le_rank_self _
    · exact hafter b hb

theorem IsFirstBest.mem (h : IsFirstBest fitness best candidates) : best ∈ candidates := by
  obtain ⟨before, after, rfl, -, -⟩ := h
  simp

/-- There is one first best candidate at most. -/
theorem IsFirstBest.firstBest?_eq (h : IsFirstBest fitness best candidates) :
    firstBest? fitness candidates = some best := by
  obtain ⟨before, after, rfl, hbefore, -⟩ := id h
  unfold firstBest?
  rw [List.find?_eq_some_iff_append]
  constructor
  · rw [List.all_eq_true]
    intro b hb
    rw [Bool.not_eq_true', decide_eq_false_iff_not, not_rank_lt_rank_iff]
    exact h.le_of_mem hb
  · refine ⟨before, after, rfl, ?_⟩
    intro b hb
    rw [Bool.not_eq_true', List.all_eq_false]
    exact ⟨best, by simp, by simpa using hbefore b hb⟩

/-- A newcomer in front that ranks behind the old head changes nothing. -/
theorem IsFirstBest.cons_of_lt (h : IsFirstBest fitness best (next :: rest))
    (hlt : rank (fitness next) < rank (fitness kept)) :
    IsFirstBest fitness best (kept :: next :: rest) := by
  have hle := rank_le_rank_iff.mp (h.le_of_mem List.mem_cons_self)
  obtain ⟨before, after, hsplit, hbefore, hafter⟩ := h
  refine ⟨kept :: before, after, by rw [hsplit]; rfl, ?_, hafter⟩
  intro b hb
  rcases List.mem_cons.mp hb with rfl | hb
  · rw [rank_lt_rank_iff] at hlt ⊢
    exact hle.trans_lt hlt
  · exact hbefore b hb

/-- A newcomer behind the head that ranks no better than the head changes nothing. -/
theorem IsFirstBest.insert_of_le (h : IsFirstBest fitness best (kept :: rest))
    (hle : rank (fitness kept) ≤ rank (fitness next)) :
    IsFirstBest fitness best (kept :: next :: rest) := by
  have hhead := rank_le_rank_iff.mp (h.le_of_mem List.mem_cons_self)
  obtain ⟨before, after, hsplit, hbefore, hafter⟩ := h
  cases before with
  | nil =>
    obtain ⟨rfl, rfl⟩ := List.cons.inj hsplit
    refine ⟨[], next :: rest, rfl, by simp, ?_⟩
    intro b hb
    rcases List.mem_cons.mp hb with rfl | hb
    · exact hle
    · exact hafter b hb
  | cons c before =>
    obtain ⟨rfl, rfl⟩ := List.cons.inj hsplit
    refine ⟨kept :: next :: before, after, rfl, ?_, hafter⟩
    have hkept := hbefore kept List.mem_cons_self
    intro b hb
    rcases List.mem_cons.mp hb with rfl | hb
    · exact hkept
    · rcases List.mem_cons.mp hb with rfl | hb
      · rw [rank_lt_rank_iff] at hkept ⊢
        exact hkept.trans_le (rank_le_rank_iff.mp hle)
      · exact hbefore b (List.mem_cons_of_mem _ hb)

/-- Preferring one candidate after the other ends at the first of the best. -/
theorem isFirstBest_foldl_prefer (kept : α) (rest : List α) :
    IsFirstBest fitness (rest.foldl (prefer fitness) kept) (kept :: rest) := by
  induction rest generalizing kept with
  | nil => exact ⟨[], [], rfl, by simp, by simp⟩
  | cons next rest ih =>
    rw [List.foldl_cons]
    by_cases h : rank (fitness next) < rank (fitness kept)
    · rw [prefer_of_lt h]
      exact (ih next).cons_of_lt h
    · rw [prefer_of_not_lt h]
      exact (ih kept).insert_of_le (not_rank_lt_rank_iff.mp h)

/-- Preferring through a list ends at the first of the best. -/
theorem firstBest?_cons (kept : α) (rest : List α) :
    firstBest? fitness (kept :: rest) = some (rest.foldl (prefer fitness) kept) :=
  (isFirstBest_foldl_prefer kept rest).firstBest?_eq

/-- It does not matter how candidates are grouped, as long as their order stays. -/
theorem prefer_assoc (a b c : α) :
    prefer fitness (prefer fitness a b) c = prefer fitness a (prefer fitness b c) := by
  by_cases hab : rank (fitness b) < rank (fitness a)
  · rw [prefer_of_lt hab]
    by_cases hbc : rank (fitness c) < rank (fitness b)
    · rw [prefer_of_lt hbc, prefer_of_lt (Double.lt_of_lt_of_le hbc (Double.le_of_lt hab))]
    · rw [prefer_of_not_lt hbc, prefer_of_lt hab]
  · rw [prefer_of_not_lt hab]
    by_cases hbc : rank (fitness c) < rank (fitness b)
    · rw [prefer_of_lt hbc]
    · have hac := Double.le_of_le_of_le (not_rank_lt_rank_iff.mp hab) (not_rank_lt_rank_iff.mp hbc)
      rw [prefer_of_not_lt hbc, prefer_of_not_lt hab,
        prefer_of_not_lt (not_rank_lt_rank_iff.mpr hac)]

/-- Preferring through a list comes to preferring the first of its best. -/
theorem foldl_prefer_cons (kept next : α) (rest : List α) :
    (next :: rest).foldl (prefer fitness) kept =
      prefer fitness kept (rest.foldl (prefer fitness) next) := by
  induction rest generalizing next with
  | nil => rfl
  | cons c rest ih =>
    have hassoc : (next :: c :: rest).foldl (prefer fitness) kept =
        (prefer fitness next c :: rest).foldl (prefer fitness) kept := by
      simp only [List.foldl_cons, prefer_assoc]
    rw [hassoc, ih, List.foldl_cons]

/-! ### The least rank -/

def leastRank (fitness : α → Float) (candidates : List α) : Float :=
  (candidates.map fun a => rank (fitness a)).min?.getD worst

theorem rank_prefer (kept next : α) :
    rank (fitness (prefer fitness kept next)) = min (rank (fitness kept)) (rank (fitness next)) := by
  change _ = if rank (fitness kept) ≤ rank (fitness next) then _ else _
  rw [prefer_eq_ite, apply_ite fitness, apply_ite rank]

theorem leastRank_cons (kept : α) (rest : List α) :
    leastRank fitness (kept :: rest) = rank (fitness (rest.foldl (prefer fitness) kept)) := by
  change (rest.map fun a => rank (fitness a)).foldl min (rank (fitness kept)) = _
  induction rest generalizing kept with
  | nil => rfl
  | cons next rest ih => rw [List.map_cons, List.foldl_cons, ← rank_prefer, ih, List.foldl_cons]

/-! ### The place of the first of the best -/

/-- No candidate ranks strictly before the one at place `i`, and it ranks strictly before all that
    stand in front of it. -/
structure IsFirstLeast (fitness : α → Float) (candidates : List α) (i : Nat) : Prop where
  lt_length : i < candidates.length
  le : ∀ j (hj : j < candidates.length),
    rank (fitness candidates[i]) ≤ rank (fitness candidates[j])
  lt : ∀ j (hj : j < i), rank (fitness candidates[i]) < rank (fitness candidates[j])

theorem IsFirstLeast.unique {i j : Nat} (hi : IsFirstLeast fitness candidates i)
    (hj : IsFirstLeast fitness candidates j) : i = j := by
  rcases Nat.lt_trichotomy i j with hlt | heq | hgt
  · exact absurd (hj.lt i hlt) (not_rank_lt_rank_iff.mpr (hi.le j hj.lt_length))
  · exact heq
  · exact absurd (hi.lt j hgt) (not_rank_lt_rank_iff.mpr (hj.le i hi.lt_length))

theorem IsFirstBest.exists_isFirstLeast (h : IsFirstBest fitness best candidates) :
    ∃ i, IsFirstLeast fitness candidates i ∧ candidates[i]? = some best := by
  obtain ⟨before, after, rfl, hbefore, hafter⟩ := id h
  have hget : (before ++ best :: after)[before.length]? = some best := by simp
  obtain ⟨hlt, hbest⟩ := List.getElem?_eq_some_iff.mp hget
  refine ⟨before.length, ⟨hlt, ?_, ?_⟩, hget⟩
  · intro j hj
    rw [hbest]
    exact h.le_of_mem (List.getElem_mem hj)
  · intro j hj
    rw [hbest, List.getElem_append_left hj]
    exact hbefore _ (List.getElem_mem hj)

theorem IsFirstLeast.isFirstBest {i : Nat} (h : IsFirstLeast fitness candidates i) :
    IsFirstBest fitness (candidates.get ⟨i, h.lt_length⟩) candidates := by
  have hi := h.lt_length
  rw [List.get_eq_getElem]
  refine ⟨candidates.take i, candidates.drop (i + 1), ?_, ?_, ?_⟩
  · rw [← List.drop_eq_getElem_cons hi, List.take_append_drop]
  · intro b hb
    obtain ⟨j, hj, rfl⟩ := List.mem_take_iff_getElem.mp hb
    exact h.lt j (by omega)
  · intro b hb
    obtain ⟨j, hj, rfl⟩ := List.mem_drop_iff_getElem.mp hb
    exact h.le _ _

/-! ### The first of the best, found with an accumulator -/

theorem keepBetter_some (kept next : α) :
    keepBetter fitness (some kept) next = some (prefer fitness kept next) := by
  simp only [keepBetter, prefer_eq_ite, apply_ite some]

theorem best?_cons (kept : α) (rest : List α) :
    best? fitness (kept :: rest) = some (rest.foldl (prefer fitness) kept) := by
  change rest.foldl (keepBetter fitness) (some kept) = _
  induction rest generalizing kept with
  | nil => rfl
  | cons next rest ih => rw [List.foldl_cons, keepBetter_some, ih, List.foldl_cons]

/-- The candidate that the program keeps is the one that the specification picks. -/
theorem best?_eq_firstBest? (candidates : List α) :
    best? fitness candidates = firstBest? fitness candidates := by
  cases candidates with
  | nil => rfl
  | cons kept rest => rw [best?_cons, firstBest?_cons]

theorem best?_eq_none_iff : best? fitness candidates = none ↔ candidates = [] := by
  cases candidates with
  | nil => simp
  | cons kept rest => simp [best?_cons]

theorem IsFirstLeast.best?_eq {i : Nat} (h : IsFirstLeast fitness candidates i) :
    best? fitness candidates = candidates[i]? := by
  have hi := h.lt_length
  rw [best?_eq_firstBest?, h.isFirstBest.firstBest?_eq, List.getElem?_eq_getElem hi,
    List.get_eq_getElem]

theorem exists_isFirstLeast (h : candidates ≠ []) : ∃ i, IsFirstLeast fitness candidates i := by
  cases candidates with
  | nil => exact absurd rfl h
  | cons kept rest =>
    have hbest : IsFirstBest fitness _ (kept :: rest) := isFirstBest_foldl_prefer kept rest
    obtain ⟨i, hi, -⟩ := hbest.exists_isFirstLeast
    exact ⟨i, hi⟩

/-- Candidates in two parts: the best of the front part unless that of the back part is better. -/
theorem best?_append {front back : List α} {a b : α} (ha : best? fitness front = some a)
    (hb : best? fitness back = some b) :
    best? fitness (front ++ back) =
      some (if rank (fitness a) ≤ rank (fitness b) then a else b) := by
  cases front with
  | nil => simp at ha
  | cons kept rest =>
    cases back with
    | nil => simp at hb
    | cons next more =>
      rw [best?_cons, Option.some_inj] at ha hb
      rw [List.cons_append, best?_cons, List.foldl_append, ha, foldl_prefer_cons, hb, prefer_eq_ite]

theorem isFirstBest_of_best? (h : best? fitness candidates = some best) :
    IsFirstBest fitness best candidates := by
  cases candidates with
  | nil => cases h
  | cons kept rest =>
    rw [best?_cons, Option.some_inj] at h
    rw [← h]
    exact isFirstBest_foldl_prefer kept rest

end FirstBest

end ParticleSwarm.Fitness
