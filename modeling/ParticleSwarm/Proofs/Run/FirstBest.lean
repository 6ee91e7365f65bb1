import ParticleSwarm.Proofs.Run.Course
import ParticleSwarm.Proofs.Swarm.AnyOrder
import ParticleSwarm.Proofs.Swarm.Passing
import ParticleSwarm.Proofs.Validation

/-!
# A run reports the first best point it has scored

A run never keeps a list of the points it has been to.  With an objective that follows a function
`f`, its leader is nevertheless the first of the best among the origin and all points scored so
far.  A pass carries this over: no remembered point ranks before the leader, so a particle
challenges it with success exactly when its position does, and then remembers that position.
-/

namespace ParticleSwarm

open Fitness

/-! ### Leaders and reviewed particles -/

theorem Particle.personalBest_reviewed (f : Point → Float) (p : Particle) :
    (p.reviewed f).personalBest = prefer f p.personalBest p.position :=
  p.personalBest_remember _ _

namespace Leader

variable {f : Point → Float}

theorem challenge_ofPoint (f : Point → Float) (q x : Point) :
    (ofPoint f q).challenge x (rank (f x)) = ofPoint f (prefer f q x) := by
  by_cases h : rank (f x) < rank (f q)
  · rw [prefer_of_lt h]
    exact if_pos h
  · rw [prefer_of_not_lt h]
    exact if_neg h

/-- A reviewed particle that used to rank behind the leader challenges it with its position. -/
theorem meet_reviewed {q : Point} {p : Particle} (h : rank (f q) ≤ rank (f p.personalBest)) :
    (ofPoint f q).meet f (p.reviewed f) = ofPoint f (prefer f q p.position) := by
  rw [meet, p.personalBest_reviewed, challenge_ofPoint]
  by_cases hnew : rank (f p.position) < rank (f p.personalBest)
  · rw [prefer_of_lt hnew]
  · -- the particle still ranks behind the leader, and so does its position
    rw [prefer_of_not_lt hnew, prefer_of_not_lt (not_rank_lt_rank_iff.mpr h)]
    rw [not_rank_lt_rank_iff] at hnew
    rw [prefer_of_not_lt (not_rank_lt_rank_iff.mpr (Double.le_of_le_of_le h hnew))]

theorem rank_prefer_le (f : Point → Float) (q x : Point) :
    rank (f (prefer f q x)) ≤ rank (f q) := by
  by_cases h : rank (f x) < rank (f q)
  · rw [prefer_of_lt h]
    exact Double.le_of_lt h
  · rw [prefer_of_not_lt h]
    exact rank_le_rank_self _

/-- A leader that is as good as every remembered point is challenged by the positions alone. -/
theorem foldl_meet_reviewed {q : Point} {ps : List Particle}
    (h : ∀ p ∈ ps, rank (f q) ≤ rank (f p.personalBest)) :
    (ps.map (Particle.reviewed f)).foldl (meet f) (ofPoint f q) =
      ofPoint f ((ps.map Particle.position).foldl (prefer f) q) := by
  induction ps generalizing q with
  | nil => rfl
  | cons p ps ih =>
    rw [List.map_cons, List.foldl_cons, meet_reviewed (h p List.mem_cons_self), List.map_cons,
      List.foldl_cons]
    refine ih fun p' hp' => ?_
    exact Double.le_of_le_of_le (rank_prefer_le f q p.position) (h p' (List.mem_cons_of_mem _ hp'))

theorem none_challenge (f : Point → Float) (q : Point) :
    none.challenge q (rank (f q)) = ofPoint f q ∨
      none.challenge q (rank (f q)) = none ∧ rank (f q) = worst := by
  by_cases h : rank (f q) < worst
  · exact Or.inl (if_pos h)
  · refine Or.inr ⟨if_neg h, rank_eq_worst_of_worst_le ?_⟩
    rwa [← rank_worst, not_rank_lt_rank_iff, rank_worst] at h

/-- A particle that remembers the origin makes a fresh leader the better one of the origin and the
    particle's position. -/
theorem none_meet_reviewed {p : Particle} (h : p.personalBest = .origin) :
    none.meet f (p.reviewed f) = ofPoint f (prefer f .origin p.position) := by
  rw [meet, Particle.personalBest_reviewed, h]
  rcases none_challenge f (prefer f .origin p.position) with hq | ⟨hq, hworst⟩
  · exact hq
  · -- nothing worthless replaces the origin
    have hstay : prefer f .origin p.position = .origin := by
      refine prefer_of_not_lt fun hlt => ?_
      rw [prefer_of_lt hlt] at hworst
      rw [hworst] at hlt
      exact not_worst_lt (rank_le_worst _) hlt
    rw [hq, hstay]
    rw [hstay] at hworst
    rw [ofPoint, hworst]
    rfl

/-- The first pass scores the origin, which every new particle remembers, and the positions. -/
theorem none_foldl_meet_reviewed {ps : List Particle} (hne : ps ≠ [])
    (h : ∀ p ∈ ps, p.personalBest = .origin) :
    (ps.map (Particle.reviewed f)).foldl (meet f) none =
      ofPoint f ((ps.map Particle.position).foldl (prefer f) .origin) := by
  cases ps with
  | nil => exact absurd rfl hne
  | cons p ps =>
    rw [List.map_cons, List.foldl_cons, none_meet_reviewed (h p List.mem_cons_self), List.map_cons,
      List.foldl_cons]
    refine foldl_meet_reviewed fun q hq => ?_
    rw [h q (List.mem_cons_of_mem _ hq)]
    exact rank_prefer_le f .origin p.position

end Leader

/-! ### Passes -/

namespace Swarm

variable {σ γ : Type} {o : Objective σ} {f : Point → Float} {st : Stage σ γ}

def visits (s : Swarm) : List Point := s.confine.particles.map Particle.position

/-- A pass that succeeds has reviewed every particle before the leader meets any. -/
theorem leader_pass_of_follows (hf : o.Follows f) (hok : (pass o st).1 = .ok ()) :
    (pass o st).2.swarm.leader =
      (st.swarm.confine.particles.map (Particle.reviewed f)).foldl (Leader.meet f)
        st.swarm.leader := by
  rw [swarm_pass_of_ok hf hok, passed, confine, List.map_map]
  rfl

theorem leader_pass_of_fresh (hf : o.Follows f) (hfresh : st.swarm.Fresh)
    (hne : st.swarm.particles ≠ []) (hok : (pass o st).1 = .ok ()) :
    (pass o st).2.swarm.leader =
      Leader.ofPoint f (st.swarm.visits.foldl (prefer f) .origin) := by
  rw [leader_pass_of_follows hf hok, hfresh.leader]
  refine Leader.none_foldl_meet_reviewed (fun h => hne (List.map_eq_nil_iff.mp h)) fun p hp => ?_
  refine hfresh.eq_origin_of_mem_bests ?_
  rw [← bests_confine]
  exact List.mem_map_of_mem hp

/-- A pass takes a leader that no remembered point beats to the first of the best among its point
    and the points that are visited. -/
theorem leader_pass_of_le (hf : o.Follows f) {q : Point}
    (hleader : st.swarm.leader = Leader.ofPoint f q)
    (hle : ∀ b ∈ st.swarm.bests, rank (f q) ≤ rank (f b)) (hok : (pass o st).1 = .ok ()) :
    (pass o st).2.swarm.leader = Leader.ofPoint f (st.swarm.visits.foldl (prefer f) q) := by
  rw [leader_pass_of_follows hf hok, hleader]
  refine Leader.foldl_meet_reviewed fun p hp => hle _ ?_
  rw [← bests_confine]
  exact List.mem_map_of_mem hp

end Swarm

/-! ### Runs -/

namespace Optimizer

variable {σ γ : Type} [WordSource γ] {o : Objective σ} {f : Point → Float} {st : Stage σ γ}

/-- The points that a run evaluates in a pass.  The first pass, with index zero, belongs to the
    start, the others to the steps. -/
def visits (o : Objective σ) (st : Stage σ γ) : Nat → List Point
  | 0 => (Swarm.scatter st).2.swarm.visits
  | n + 1 => (stageAfter o 0 (Swarm.start o st).2 n).swarm.visits

/-- The origin and the points that a run evaluates up to the pass with index `n`, in order. -/
def candidates (o : Objective σ) (st : Stage σ γ) (n : Nat) : List Point :=
  .origin :: (List.range (n + 1)).flatMap (visits o st)

theorem candidates_succ (o : Objective σ) (st : Stage σ γ) (n : Nat) :
    candidates o st (n + 1) = candidates o st n ++ visits o st (n + 1) := by
  rw [candidates, candidates, List.range_succ, List.flatMap_append, List.flatMap_singleton,
    List.cons_append]

/-- The start makes the leader the first of the best among the origin and the points visited. -/
theorem leader_start (hf : o.Follows f) (hsize : st.swarm.populationSize ≠ 0)
    (hok : (Swarm.start o st).1 = .ok ()) :
    (Swarm.start o st).2.swarm.leader =
        Leader.ofPoint f ((visits o st 0).foldl (prefer f) .origin) ∧
      (Swarm.start o st).2.swarm.Settled f := by
  obtain ⟨hscatter, hpass⟩ := Swarm.start_eq_pass hok
  have hne : (Swarm.scatter st).2.swarm.particles ≠ [] := by
    intro hnil
    have hlength := Swarm.length_particles_scatter hscatter
    rw [hnil, List.length_nil] at hlength
    exact hsize (UInt64.toNat_inj.mp hlength.symm)
  have hfresh := Swarm.fresh_scatter st
  rw [hpass] at hok ⊢
  refine ⟨Swarm.leader_pass_of_fresh hf hfresh hne hok, ?_⟩
  refine hfresh.consistent.settled_pass hf hok ?_
  exact ((Swarm.leads_pass_keeps hf _ hfresh.consistent).2.bests_ne_nil
    (mt Swarm.bests_eq_nil_iff.mp hne))

/-- A step takes a settled swarm to the first of the best among the leader and the points that it
    visits. -/
theorem leader_step (hf : o.Follows f) {q : Point}
    (hleader : st.swarm.leader = Leader.ofPoint f q) (hconsistent : st.swarm.Consistent f)
    (hsettled : st.swarm.Settled f) (hok : (Swarm.step o st).1 = .ok ()) :
    (Swarm.step o st).2.swarm.leader =
        Leader.ofPoint f (st.swarm.visits.foldl (prefer f) q) ∧
      (Swarm.step o st).2.swarm.Settled f := by
  have hpass := Swarm.pass_eq_ok_of_step hok
  have hle : ∀ b ∈ st.swarm.bests, rank (f q) ≤ rank (f b) := by
    have hle := hsettled.fitness_le
    rw [hleader] at hle
    exact hle
  constructor
  · rw [Swarm.step_of_pass hpass]
    exact Swarm.leader_pass_of_le hf hleader hle hpass
  · refine hconsistent.settled_step hf hok ?_
    have hdescends := (Swarm.leads_step_keeps hf st hconsistent).2
    exact hdescends.bests_ne_nil (List.ne_nil_of_mem hsettled.mem_bests)

/-- After its start and any number of steps the leader of a run is the first of the best among all
    candidates so far, and no remembered point beats it. -/
theorem leader_stageAfter (hf : o.Follows f) (hsize : st.swarm.populationSize ≠ 0) {n : Nat}
    (hstart : (Swarm.start o st).1 = .ok ())
    (hsteps : ∀ k < n, (Swarm.step o (stageAfter o 0 (Swarm.start o st).2 k)).1 = .ok ()) :
    let s := (stageAfter o 0 (Swarm.start o st).2 n).swarm
    (∃ q, firstBest? f (candidates o st n) = some q ∧ s.leader = Leader.ofPoint f q) ∧
      s.Consistent f ∧ s.Settled f := by
  induction n with
  | zero =>
    obtain ⟨hleader, hsettled⟩ := leader_start hf hsize hstart
    refine ⟨⟨_, firstBest?_cons _ _, ?_⟩, Swarm.consistent_start hf st, hsettled⟩
    rw [List.range_one, List.flatMap_singleton]
    exact hleader
  | succ n ih =>
    obtain ⟨⟨q, hq, hleader⟩, hconsistent, hsettled⟩ := ih fun k hk => hsteps k (Nat.lt_succ_of_lt hk)
    obtain ⟨hleader', hsettled'⟩ :=
      leader_step hf hleader hconsistent hsettled (hsteps n n.lt_succ_self)
    have hconsistent' := (Swarm.leads_step_keeps hf _ hconsistent).1
    rw [stageAfter, swarm_recordedStep]
    refine ⟨⟨_, ?_, hleader'⟩, hconsistent', hsettled'⟩
    rw [candidates, firstBest?_cons, Option.some_inj] at hq
    rw [candidates_succ, candidates, List.cons_append, firstBest?_cons, List.foldl_append, hq]
    rfl

/-- **A run reports the first best point it has scored.**  When a run of an objective that follows
    `f` succeeds, its point is the first of the best among the origin and all points evaluated in
    its passes, with the rank of its value, and its history holds the rank of the first of the best
    after the start and after each step. -/
theorem runWith_reports_firstBest {opt : Optimizer σ} (hf : opt.objective.Follows f)
    {session : Session σ} {g : γ} {r : RunResult} (h : (opt.runWith g session).1 = .ok r) :
    let st := stage opt.config session g
    let steps := opt.config.maxIterations.toNat
    firstBest? f (candidates opt.objective st steps) = some r.best.point ∧
      r.best.fitness = rank (f r.best.point) ∧
      r.history.size = steps + 1 ∧
      ∀ t ≤ steps, ∃ q, firstBest? f (candidates opt.objective st t) = some q ∧
        r.history.toList[t]? = some (rank (f q)) := by
  intro st steps
  have hsize : st.swarm.populationSize ≠ 0 := (Config.validate_eq_ok_iff.mp opt.valid).1
  obtain ⟨hstart, hsteps, hbest, hhistory⟩ := course_eq_ok h
  have hstages (t : Nat) (ht : t ≤ steps) :=
    (leader_stageAfter hf hsize hstart fun k hk => hsteps k (hk.trans_le ht)).1
  obtain ⟨q, hq, hleader⟩ := hstages steps le_rfl
  rw [← hbest] at hleader
  rw [hleader]
  refine ⟨hq, rfl, ?_, ?_⟩
  · rw [← History.length_toList, hhistory, List.length_map, List.length_range]
  · intro t ht
    obtain ⟨q, hq, hleader⟩ := hstages t ht
    refine ⟨q, hq, ?_⟩
    rw [hhistory, List.getElem?_map, List.getElem?_range (Nat.lt_succ_of_le ht), Option.map_some,
      hleader]
    rfl

/-- Two particles on a square, one of which overshoots the other in the first step and so finds the
    left edge, which the second step scores. -/
def overshooting : Optimizer Unit where
  objective := .ofFunction fun p => .ok p.x
  name := "abscissa"
  config :=
    { populationSize := 2
      maxIterations := 2
      coefficients := ⟨0, 0, 3⟩
      bounds := .square (-4) 4 }
  valid := rfl

theorem overshooting_reports_firstBest :
    let half : UInt64 := 0x8000000000000000
    let g := Generator.ofWords ([half, 0, half, 0] ++ List.replicate 12 half)
    let st := stage overshooting.config ⟨(), #[]⟩ g
    let r : RunResult := ⟨⟨⟨-4, -4⟩, -4⟩, ⟨#[-2, -2, -4]⟩⟩
    (overshooting.objective.Follows Point.x ∧ (overshooting.runWith g ⟨(), #[]⟩).1 = .ok r) ∧
      candidates overshooting.objective st 2 =
        [.origin, ⟨2, 2⟩, ⟨-2, -2⟩, ⟨2, 2⟩, ⟨-2, -2⟩, ⟨-4, -4⟩, ⟨-2, -2⟩] ∧
      firstBest? Point.x (candidates overshooting.objective st 2) = some ⟨-4, -4⟩ ∧
      1 ≤ 2 ∧ ∃ q, firstBest? Point.x (candidates overshooting.objective st 1) = some q ∧
        r.history.toList[1]? = some (rank q.x) := by
  intro half g st r
  have hf : overshooting.objective.Follows Point.x := fun _ _ _ h => (Except.ok.inj h).symm
  have hok : (overshooting.runWith g ⟨(), #[]⟩).1 = .ok r :=
    Attempt.eq_ok_of_toOption (by decide +kernel)
  obtain ⟨hbest, -, -, hhistory⟩ := runWith_reports_firstBest hf hok
  exact ⟨⟨hf, hok⟩, by decide +kernel, hbest, by decide, hhistory 1 (by decide)⟩

end Optimizer

end ParticleSwarm
