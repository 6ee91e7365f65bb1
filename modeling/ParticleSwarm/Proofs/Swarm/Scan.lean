import ParticleSwarm.Proofs.Swarm.Passing

/-!
# What a scan finds

A scan for a new leader raises its own bar as it goes along.  For an objective that always gives the
values of a function, it nevertheless comes to one comparison: of the leader with the least rank among
the remembered points.  The leader is told to have changed exactly when that rank is lower, and then
the first particle of that rank takes its place.  So scanning again changes nothing, and the order
of the particles decides at most which of several equals is taken.
-/

namespace ParticleSwarm

open Fitness Leader

variable {σ γ : Type} {o : Objective σ} {f : Point → Float}

/-- What a scan tells and what it leaves as the leader, from the leader that it begins with. -/
theorem Leader.scan_of_answersBy (h : o.AnswersBy fun p => .ok (f p)) {l : Leader}
    (hl : IsRank l.fitness) (changed : Bool) (ps : List Particle) (s : Session σ) :
    (scan o l changed ps s).1 =
      (.ok (changed || decide ((ps.foldl (meet f) l).fitness < l.fitness)),
        ps.foldl (meet f) l) := by
  induction ps generalizing l changed s with
  | nil => simp [scan, hl.not_lt_self]
  | cons p ps ih =>
    have hcost : (o.cost p.personalBest s).1 = .ok (f p.personalBest) := h.cost_fst_eq_ok.mpr rfl
    rw [scan_cons_of_ok hcost]
    change (scan o (l.meet f p) _ ps _).1 = _
    rw [ih (isRank_meet hl p), List.foldl_cons]
    by_cases hlt : rank (f p.personalBest) < l.fitness
    · -- once the bar is raised, the last leader is below the first one
      have hbelow : (ps.foldl (meet f) (l.meet f p)).fitness ≤ (l.meet f p).fitness :=
        foldl_meet_fitness_le (isRank_meet hl p) ps
      rw [meet_of_lt hlt] at hbelow ⊢
      simp [hlt, Double.lt_of_le_of_lt hbelow hlt]
    · simp [meet_of_not_lt hlt, hlt]

namespace Swarm

theorem refresh_of_answersBy (h : o.AnswersBy fun p => .ok (f p)) (st : Stage σ γ)
    (hrank : IsRank st.swarm.leader.fitness) :
    let found := st.swarm.particles.foldl (meet f) st.swarm.leader
    (refresh o st).1 = .ok (decide (found.fitness < st.swarm.leader.fitness)) ∧
      (refresh o st).2.swarm = { st.swarm with leader := found } := by
  intro found
  have hscan := Leader.scan_of_answersBy h hrank false st.swarm.particles st.session
  rw [Bool.false_or] at hscan
  exact ⟨congrArg Prod.fst hscan,
    congrArg (fun result => { st.swarm with leader := result.2 }) hscan⟩

/-- **A scan finds the first of the best.**  For an objective that always gives the values of `f`, and
    a leader with any point and any rank, a scan tells a change exactly when the least rank among the
    remembered points is below that of the leader.  Then the first particle of that rank is the new
    leader, and otherwise nothing has changed.  A second scan tells no change and makes none.  With
    the particles in another order a scan tells the same and ends with the same number. -/
theorem refresh_finds_firstBest (h : o.AnswersBy fun p => .ok (f p)) (st : Stage σ γ)
    (hrank : IsRank st.swarm.leader.fitness) :
    let l := st.swarm.leader
    let least := leastRank (bestValue f) st.swarm.particles
    let scanned := (refresh o st).2
    (refresh o st).1 = .ok (decide (least < l.fitness)) ∧
    (least < l.fitness →
      ∃ before p after, st.swarm.particles = before ++ p :: after ∧
        rank (f p.personalBest) = least ∧
        (∀ q ∈ before, least < rank (f q.personalBest)) ∧
        scanned.swarm =
          { st.swarm with leader := ⟨p.personalBest, rank (f p.personalBest)⟩ }) ∧
    (¬ least < l.fitness → scanned.swarm = st.swarm) ∧
    (refresh o scanned).1 = .ok false ∧ (refresh o scanned).2.swarm = scanned.swarm ∧
    ∀ particles, particles.Perm st.swarm.particles →
      let shuffled : Stage σ γ := { st with swarm := { st.swarm with particles } }
      (refresh o shuffled).1 = (refresh o st).1 ∧
        ((refresh o shuffled).2.swarm.leader.fitness == scanned.swarm.leader.fitness) = true := by
  intro l least scanned
  obtain ⟨hflag, hswarm⟩ := refresh_of_answersBy h st hrank
  have hlt_iff : (st.swarm.particles.foldl (meet f) l).fitness < l.fitness ↔ least < l.fitness :=
    foldl_meet_fitness_lt_iff hrank
  have hrank' : IsRank scanned.swarm.leader.fitness := by
    rw [hswarm]
    exact isRank_foldl_meet hrank _
  have hagain : scanned.swarm.particles.foldl (meet f) scanned.swarm.leader =
      scanned.swarm.leader := by
    rw [hswarm]
    exact foldl_meet_foldl_meet hrank _
  obtain ⟨hflag', hswarm'⟩ := refresh_of_answersBy h scanned hrank'
  rw [hagain] at hflag' hswarm'
  refine ⟨?_, ?_, ?_, ?_, hswarm', ?_⟩
  · exact hflag.trans (congrArg Except.ok (decide_eq_decide.mpr hlt_iff))
  · intro hlt
    obtain ⟨before, p, after, hsplit, hleast, hbefore, hleader⟩ := exists_foldl_meet_of_lt hrank hlt
    rw [hleader] at hswarm
    exact ⟨before, p, after, hsplit, hleast, hbefore, hswarm⟩
  · intro hnot
    rw [hswarm, foldl_meet_of_not_lt hrank hnot]
  · rw [hflag']
    simp [hrank'.not_lt_self]
  · intro particles hperm shuffled
    obtain ⟨hflag'', hswarm''⟩ := refresh_of_answersBy h shuffled hrank
    have hle := foldl_meet_fitness_le_of_perm (f := f) hrank hperm
    have hle' := foldl_meet_fitness_le_of_perm (f := f) hrank hperm.symm
    constructor
    · have hiff : (particles.foldl (meet f) l).fitness < l.fitness ↔
          (st.swarm.particles.foldl (meet f) l).fitness < l.fitness :=
        ⟨Double.lt_of_le_of_lt hle', Double.lt_of_le_of_lt hle⟩
      rw [hflag, hflag'']
      exact congrArg Except.ok (decide_eq_decide.mpr hiff)
    · rw [hswarm, hswarm'']
      exact Double.beq_of_le_of_le hle hle'

/-- The remembered points have the values NaN, `3`, `-0.0` and `0.0`, and the leader has a rank that is
    not the value of its point.  The first of the two zeros takes its place, and in the reversed
    order that is the other one. -/
theorem zeros_refresh_finds_firstBest :
    let nan := Float.ofBits 0x7ff8000000000000
    let negZero := Float.ofBits 0x8000000000000000
    let o : Objective Unit := .ofFunction fun p => .ok p.x
    let particles : List Particle :=
      [⟨nan, 1⟩, ⟨3, 2⟩, ⟨negZero, 3⟩, ⟨0, 4⟩].map fun best => ⟨.origin, .origin, best⟩
    let swarm := { ofConfig .standard with particles, leader := ⟨⟨7, 7⟩, 0.5⟩ }
    let st : Stage Unit Unit := ⟨swarm, ⟨(), #[]⟩, ()⟩
    let shuffled := { st with swarm := { swarm with particles := particles.reverse } }
    let least := leastRank (bestValue Point.x) particles
    (o.AnswersBy (fun p => .ok p.x) ∧ IsRank swarm.leader.fitness ∧
      least < swarm.leader.fitness ∧ particles.reverse.Perm particles) ∧
    (refresh o st).1 = .ok true ∧
    (∃ before p after, particles = before ++ p :: after ∧ rank p.personalBest.x = least ∧
      (refresh o st).2.swarm.leader = ⟨p.personalBest, rank p.personalBest.x⟩) ∧
    (refresh o st).2.swarm.leader = ⟨⟨negZero, 3⟩, negZero⟩ ∧
    (refresh o (refresh o st).2).1 = .ok false ∧
    (refresh o shuffled).1 = .ok true ∧
    (refresh o shuffled).2.swarm.leader = ⟨⟨0, 4⟩, 0⟩ ∧
    ((refresh o shuffled).2.swarm.leader.fitness ==
      (refresh o st).2.swarm.leader.fitness) = true := by
  intro nan negZero o particles swarm st shuffled least
  have hanswers : o.AnswersBy fun p => .ok p.x := fun _ _ => rfl
  have hrank : IsRank swarm.leader.fitness := Or.inl (by decide +kernel)
  have hlt : least < swarm.leader.fitness := by decide +kernel
  have hperm : particles.reverse.Perm particles := List.reverse_perm particles
  obtain ⟨hflag, hfound, -, hagain, -, hshuffled⟩ :=
    refresh_finds_firstBest hanswers st hrank
  obtain ⟨hsame, hequal⟩ := hshuffled _ hperm
  have htrue : (refresh o st).1 = .ok true :=
    hflag.trans (congrArg Except.ok (decide_eq_true hlt))
  obtain ⟨before, p, after, hsplit, hleast, -, hswarm⟩ := hfound hlt
  exact ⟨⟨hanswers, hrank, hlt, hperm⟩, htrue,
    ⟨before, p, after, hsplit, hleast, congrArg Swarm.leader hswarm⟩, by decide +kernel, hagain,
    hsame.trans htrue, by decide +kernel, hequal⟩

end Swarm

end ParticleSwarm
