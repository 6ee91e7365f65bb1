import ParticleSwarm.Proofs.Swarm.Review

/-!
# Meeting particles

A leader meets the particles of a list one after the other, and each time keeps its place or gives it
to the point that the particle remembers.  However many it meets, that comes to meeting only one of
them: the first of those that remember a point of least rank.  All that is needed of the leader is
that its fitness is a rank.  It need not be the value of its point.
-/

namespace ParticleSwarm.Leader

open Fitness

variable {f : Point → Float} {l : Leader}

def ofPoint (f : Point → Float) (q : Point) : Leader := ⟨q, rank (f q)⟩

/-! ### One particle -/

theorem meet_of_lt {p : Particle} (h : rank (f p.personalBest) < l.fitness) :
    l.meet f p = ofPoint f p.personalBest := if_pos h

theorem meet_of_not_lt {p : Particle} (h : ¬ rank (f p.personalBest) < l.fitness) :
    l.meet f p = l := if_neg h

theorem isRank_challenge (hl : IsRank l.fitness) (x : Point) (v : Float) :
    IsRank (l.challenge x (rank v)).fitness := by
  rw [fitness_challenge]
  split
  · exact isRank_rank v
  · exact hl

theorem isRank_meet (hl : IsRank l.fitness) (p : Particle) : IsRank (l.meet f p).fitness :=
  isRank_challenge hl p.personalBest (f p.personalBest)

theorem meet_fitness_le (hl : IsRank l.fitness) (p : Particle) :
    (l.meet f p).fitness ≤ l.fitness := by
  by_cases hlt : rank (f p.personalBest) < l.fitness
  · rw [meet_of_lt hlt]
    exact Double.le_of_lt hlt
  · rw [meet_of_not_lt hlt]
    exact hl.le_self

theorem meet_fitness_le_rank (hl : IsRank l.fitness) (p : Particle) :
    (l.meet f p).fitness ≤ rank (f p.personalBest) := by
  by_cases hlt : rank (f p.personalBest) < l.fitness
  · rw [meet_of_lt hlt]
    exact rank_le_rank_self _
  · rw [meet_of_not_lt hlt]
    exact hl.not_lt_iff_le.mp hlt

/-! ### Many particles -/

theorem isRank_foldl_meet (hl : IsRank l.fitness) (ps : List Particle) :
    IsRank (ps.foldl (meet f) l).fitness := by
  induction ps generalizing l with
  | nil => exact hl
  | cons p ps ih => exact ih (isRank_meet hl p)

theorem foldl_meet_fitness_le (hl : IsRank l.fitness) (ps : List Particle) :
    (ps.foldl (meet f) l).fitness ≤ l.fitness := by
  induction ps generalizing l with
  | nil => exact hl.le_self
  | cons p ps ih => exact Double.le_of_le_of_le (ih (isRank_meet hl p)) (meet_fitness_le hl p)

/-- Nothing that was met ranks before the leader. -/
theorem foldl_meet_fitness_le_rank (hl : IsRank l.fitness) {ps : List Particle} {p : Particle}
    (hp : p ∈ ps) : (ps.foldl (meet f) l).fitness ≤ rank (f p.personalBest) := by
  induction ps generalizing l with
  | nil => cases hp
  | cons q ps ih =>
    rcases List.mem_cons.mp hp with rfl | hp
    · exact Double.le_of_le_of_le (foldl_meet_fitness_le (isRank_meet hl p) ps)
        (meet_fitness_le_rank hl p)
    · exact ih (isRank_meet hl q) hp

/-- A leader stays as it is, or takes the place of a remembered point. -/
theorem foldl_meet_eq_or_mem (f : Point → Float) (l : Leader) (ps : List Particle) :
    ps.foldl (meet f) l = l ∨
      (ps.foldl (meet f) l).point ∈ ps.map Particle.personalBest := by
  induction ps generalizing l with
  | nil => exact Or.inl rfl
  | cons p ps ih =>
    rw [List.foldl_cons, List.map_cons]
    rcases ih (l.meet f p) with h | h
    · rw [h]
      by_cases hlt : rank (f p.personalBest) < l.fitness
      · rw [meet_of_lt hlt]
        exact Or.inr List.mem_cons_self
      · exact Or.inl (meet_of_not_lt hlt)
    · exact Or.inr (List.mem_cons_of_mem _ h)

/-- A leader that no particle ranks strictly before stays, point and all. -/
theorem foldl_meet_of_le (hl : IsRank l.fitness) {ps : List Particle}
    (hle : ∀ p ∈ ps, l.fitness ≤ rank (f p.personalBest)) : ps.foldl (meet f) l = l := by
  induction ps with
  | nil => rfl
  | cons p ps ih =>
    rw [List.foldl_cons, meet_of_not_lt (hl.not_lt_iff_le.mpr (hle p List.mem_cons_self))]
    exact ih fun p hp => hle p (List.mem_cons_of_mem _ hp)

/-- Whom the leader has met already cannot change it again. -/
theorem foldl_meet_foldl_meet (hl : IsRank l.fitness) (ps : List Particle) :
    ps.foldl (meet f) (ps.foldl (meet f) l) = ps.foldl (meet f) l :=
  foldl_meet_of_le (isRank_foldl_meet hl ps) fun _ hp => foldl_meet_fitness_le_rank hl hp

/-! ### The first of the best -/

def bestValue (f : Point → Float) (p : Particle) : Float := f p.personalBest

/-- Two particles come to the one that is preferred. -/
theorem meet_meet (hl : IsRank l.fitness) (p q : Particle) :
    (l.meet f p).meet f q = l.meet f (prefer (bestValue f) p q) := by
  by_cases hqp : rank (bestValue f q) < rank (bestValue f p)
  · rw [prefer_of_lt hqp]
    by_cases hp : rank (f p.personalBest) < l.fitness
    · have hq : rank (f q.personalBest) < l.fitness :=
        Double.lt_of_lt_of_le hqp (Double.le_of_lt hp)
      have hq' : rank (f q.personalBest) < (ofPoint f p.personalBest).fitness := hqp
      rw [meet_of_lt hp, meet_of_lt hq, meet_of_lt hq']
    · rw [meet_of_not_lt hp]
  · rw [prefer_of_not_lt hqp]
    have hle : rank (f p.personalBest) ≤ rank (f q.personalBest) := not_rank_lt_rank_iff.mp hqp
    by_cases hp : rank (f p.personalBest) < l.fitness
    · have hq' : ¬ rank (f q.personalBest) < (ofPoint f p.personalBest).fitness := hqp
      rw [meet_of_lt hp, meet_of_not_lt hq']
    · have hq : l.fitness ≤ rank (f q.personalBest) :=
        Double.le_of_le_of_le (hl.not_lt_iff_le.mp hp) hle
      rw [meet_of_not_lt hp, meet_of_not_lt (hl.not_lt_iff_le.mpr hq)]

theorem foldl_meet_cons (hl : IsRank l.fitness) (p : Particle) (ps : List Particle) :
    (p :: ps).foldl (meet f) l = l.meet f (ps.foldl (prefer (bestValue f)) p) := by
  induction ps generalizing p with
  | nil => rfl
  | cons q ps ih =>
    have hpair : (p :: q :: ps).foldl (meet f) l =
        (prefer (bestValue f) p q :: ps).foldl (meet f) l := by
      simp only [List.foldl_cons, meet_meet hl]
    rw [hpair, ih, List.foldl_cons]

/-- The leader keeps its place when nothing that it meets ranks before it. -/
theorem foldl_meet_of_not_lt (hl : IsRank l.fitness) {ps : List Particle}
    (h : ¬ leastRank (bestValue f) ps < l.fitness) : ps.foldl (meet f) l = l := by
  cases ps with
  | nil => rfl
  | cons p ps =>
    rw [leastRank_cons] at h
    rw [foldl_meet_cons hl, meet_of_not_lt h]

/-- Otherwise the first particle that remembers a point of least rank takes it. -/
theorem exists_foldl_meet_of_lt (hl : IsRank l.fitness) {ps : List Particle}
    (h : leastRank (bestValue f) ps < l.fitness) :
    ∃ before p after, ps = before ++ p :: after ∧
      rank (f p.personalBest) = leastRank (bestValue f) ps ∧
      (∀ q ∈ before, leastRank (bestValue f) ps < rank (f q.personalBest)) ∧
      ps.foldl (meet f) l = ofPoint f p.personalBest := by
  cases ps with
  | nil => exact absurd h (not_worst_lt hl.le_worst)
  | cons p ps =>
    rw [leastRank_cons] at h ⊢
    have hbest : IsFirstBest (bestValue f) (ps.foldl (prefer (bestValue f)) p) (p :: ps) :=
      isFirstBest_foldl_prefer p ps
    obtain ⟨before, after, hsplit, hbefore, -⟩ := hbest
    exact ⟨before, _, after, hsplit, rfl, hbefore, by rw [foldl_meet_cons hl, meet_of_lt h]⟩

/-- Only the least rank among the particles matters for the fitness of the leader. -/
theorem fitness_foldl_meet (hl : IsRank l.fitness) (ps : List Particle) :
    (ps.foldl (meet f) l).fitness =
      if leastRank (bestValue f) ps < l.fitness then leastRank (bestValue f) ps
      else l.fitness := by
  split
  case isTrue h =>
    obtain ⟨before, p, after, -, hleast, -, hleader⟩ := exists_foldl_meet_of_lt hl h
    rw [hleader, ← hleast]
    rfl
  case isFalse h => rw [foldl_meet_of_not_lt hl h]

theorem foldl_meet_fitness_lt_iff (hl : IsRank l.fitness) {ps : List Particle} :
    (ps.foldl (meet f) l).fitness < l.fitness ↔ leastRank (bestValue f) ps < l.fitness := by
  rw [fitness_foldl_meet hl]
  split
  case isTrue => rfl
  case isFalse h => simp [h, hl.not_lt_self]

/-- The order of the particles does not matter to the fitness, except for the sign of a zero. -/
theorem foldl_meet_fitness_le_of_perm (hl : IsRank l.fitness) {ps ps' : List Particle}
    (h : ps.Perm ps') : (ps.foldl (meet f) l).fitness ≤ (ps'.foldl (meet f) l).fitness := by
  rw [fitness_foldl_meet hl ps']
  split
  case isTrue hlt =>
    obtain ⟨before, p, after, hsplit, hleast, -, -⟩ := exists_foldl_meet_of_lt hl hlt
    have hp : p ∈ ps := h.mem_iff.mpr (by simp [hsplit])
    rw [← hleast]
    exact foldl_meet_fitness_le_rank hl hp
  case isFalse => exact foldl_meet_fitness_le hl ps

end ParticleSwarm.Leader
