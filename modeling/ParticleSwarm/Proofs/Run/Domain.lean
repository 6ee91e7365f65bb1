import ParticleSwarm.Proofs.Bounds.Clamping
import ParticleSwarm.Proofs.Run.Course

/-!
# Where a reported point can lie

All particles remember the origin at first, and the origin is never clamped.  Any other point that
a run can report has been the position of a particle when it was confined and evaluated, so it lies
in the rectangle, unless a coordinate of it is NaN and the objective gave it a finite value.
-/

namespace ParticleSwarm

variable {σ γ : Type} {o : Objective σ} {b : Bounds}

/-! ### Points that may be remembered -/

def Bounds.Confines (b : Bounds) (p : Point) : Prop :=
  ∀ a, b.containsAlong a (p.along a) = true ∨ (p.along a).isNaN = true

theorem Bounds.Good.confines_clamp (hb : b.Good) (p : Point) : b.Confines (b.clamp p) := by
  intro a
  rw [Bounds.clamp, Point.along_ofAxes]
  cases hnan : (p.along a).isNaN with
  | false => exact Or.inl (hb.containsAlong_clampAlong a hnan)
  | true =>
    rw [Bounds.clampAlong_of_isNaN hnan]
    exact Or.inr hnan

/-- The origin, or a confined point to which the objective gives a finite value. -/
def Objective.Offers (o : Objective σ) (b : Bounds) (p : Point) : Prop :=
  p = .origin ∨ b.Confines p ∧ o.GivesFinite p

theorem Objective.Offers.eq_origin_or {p : Point} (h : o.Offers b p) :
    p = .origin ∨ b.contains p = true ∨ (∃ a, (p.along a).isNaN = true) ∧ o.GivesFinite p := by
  rcases h with horigin | ⟨hconfines, hfinite⟩
  · exact Or.inl horigin
  · by_cases hnan : ∃ a, (p.along a).isNaN = true
    · exact Or.inr (Or.inr ⟨hnan, hfinite⟩)
    · refine Or.inr (Or.inl (Bounds.contains_iff.mpr fun a => ?_))
      rcases hconfines a with h | h
      · exact h
      · exact absurd ⟨a, h⟩ hnan

/-! ### What a step keeps -/

namespace Swarm

/-- The swarm lives on the rectangle, and what it remembers may be remembered. -/
structure Remembers (o : Objective σ) (b : Bounds) (s : Swarm) : Prop where
  bounds : s.bounds = b
  bests : ∀ q ∈ s.bests, o.Offers b q
  leader : o.Offers b s.leader.point

/-- In addition the particles are confined. -/
structure Scored (o : Objective σ) (b : Bounds) (s : Swarm) : Prop extends s.Remembers o b where
  positions : ∀ p ∈ s.particles, b.Confines p.position

theorem Remembers.of_eq {s s' : Swarm} (h : s.Remembers o b) (hbounds : s'.bounds = s.bounds)
    (hbests : s'.bests = s.bests) (hleader : s'.leader = s.leader) : s'.Remembers o b := by
  refine ⟨?_, ?_, ?_⟩
  · rw [hbounds, h.bounds]
  · rw [hbests]
    exact h.bests
  · rw [hleader]
    exact h.leader

theorem Remembers.confine {s : Swarm} (h : s.Remembers o b) (hb : b.Good) :
    s.confine.Scored o b := by
  refine ⟨h.of_eq rfl (bests_confine s) rfl, fun p hp => ?_⟩
  obtain ⟨q, hq, rfl⟩ := List.mem_map.mp hp
  rw [h.bounds]
  exact hb.confines_clamp q.position

theorem Scored.evaluate {st : Stage σ γ} (h : st.swarm.Scored o b) :
    (Swarm.evaluate o st).2.swarm.Scored o b := by
  have hparticles : ∀ p ∈ (Swarm.evaluate o st).2.swarm.particles,
      o.Offers b p.personalBest ∧ b.Confines p.position := by
    refine forall_particles_evaluate (fun p hp => ?_) fun p hp hfinite => ?_
    · exact ⟨h.bests _ (List.mem_map_of_mem hp), h.positions p hp⟩
    · exact ⟨Or.inr ⟨hp.2, hfinite⟩, hp.2⟩
  refine ⟨⟨h.bounds, ?_, h.leader⟩, fun p hp => (hparticles p hp).2⟩
  intro q hq
  obtain ⟨p, hp, rfl⟩ := List.mem_map.mp hq
  exact (hparticles p hp).1

theorem Scored.refresh {st : Stage σ γ} (h : st.swarm.Scored o b) :
    (Swarm.refresh o st).2.swarm.Scored o b := by
  have hleader : o.Offers b (Swarm.refresh o st).2.swarm.leader.point :=
    leader_refresh h.leader fun p hp => h.bests _ (List.mem_map_of_mem hp)
  exact ⟨⟨h.bounds, h.bests, hleader⟩, h.positions⟩

/-- Confined positions are what a pass remembers, and only with finite values. -/
theorem Remembers.pass {st : Stage σ γ} (h : st.swarm.Remembers o b) (hb : b.Good) :
    (Swarm.pass o st).2.swarm.Remembers o b := by
  have hscored : (Swarm.pass o st).2.swarm.Scored o b :=
    pass_invariant (fun st => st.swarm.Scored o b) (h.confine hb) (fun _ => Scored.evaluate)
      fun _ => Scored.refresh
  exact hscored.toRemembers

variable [WordSource γ]

theorem Remembers.step {st : Stage σ γ} (h : st.swarm.Remembers o b) (hb : b.Good) :
    (Swarm.step o st).2.swarm.Remembers o b := by
  have hpass := h.pass hb
  rcases hok : (Swarm.pass o st).1 with e | ⟨⟨⟩⟩
  · rw [Swarm.step, Attempt.bind_of_error hok]
    exact hpass
  · rw [step_of_pass hok]
    exact hpass.of_eq rfl ((bests_advance _).trans (bests_accelerate _ _)) rfl

theorem Fresh.remembers {s : Swarm} (h : s.Fresh) (hbounds : s.bounds = b) : s.Remembers o b := by
  refine ⟨hbounds, fun q hq => Or.inl (h.eq_origin_of_mem_bests hq), Or.inl ?_⟩
  rw [h.leader]
  rfl

theorem remembers_start {st : Stage σ γ} (hbounds : st.swarm.bounds = b) (hb : b.Good) :
    (Swarm.start o st).2.swarm.Remembers o b := by
  have hsetup : (Swarm.scatter st).2.swarm.setup = st.swarm.setup := leads_scatter_sameSetup st
  have hscatter : (Swarm.scatter st).2.swarm.Remembers o b := by
    refine (fresh_scatter st).remembers ?_
    rw [← hbounds]
    exact congrArg Prod.fst hsetup
  rcases hok : (Swarm.scatter st).1 with e | ⟨⟨⟩⟩
  · rw [Swarm.start, Attempt.bind_of_error hok]
    exact hscatter
  · rw [Swarm.start, Attempt.bind_of_ok hok]
    exact hscatter.pass hb

end Swarm

/-! ### What a run reports -/

namespace Optimizer

variable [WordSource γ]

/-- What a step preserves, a run preserves, whether or not its steps succeed. -/
theorem remembers_stageAfter {st : Stage σ γ} (h : st.swarm.Remembers o b) (hb : b.Good)
    (first n : Nat) : (stageAfter o first st n).swarm.Remembers o b := by
  induction n with
  | zero => exact h
  | succ n ih =>
    rw [stageAfter, swarm_recordedStep]
    exact ih.step hb

/-- **A reported point is the origin or lies in the rectangle,** or else one of its coordinates is
    NaN and the objective gave it a finite value all the same. -/
theorem runWith_reports_origin_or_contained {opt : Optimizer σ} {session : Session σ} {g : γ}
    {r : RunResult} (h : (opt.runWith g session).1 = .ok r) :
    r.best.point = .origin ∨ opt.config.bounds.contains r.best.point = true ∨
      (∃ a, (r.best.point.along a).isNaN = true) ∧ opt.objective.GivesFinite r.best.point := by
  have hb : opt.config.bounds.Good := (Config.validate_eq_ok_iff.mp opt.valid).2.2
  obtain ⟨-, -, hbest, -⟩ := course_eq_ok h
  rw [hbest]
  have hstart : (Swarm.start opt.objective (stage opt.config session g)).2.swarm.Remembers
      opt.objective opt.config.bounds := Swarm.remembers_start rfl hb
  exact (remembers_stageAfter hstart hb 0 _).leader.eq_origin_or

def awayFromOrigin (f : Point → Float) : Optimizer Unit where
  objective := .ofFunction fun p => .ok (f p)
  name := "away from the origin"
  config := { populationSize := 1, maxIterations := 0, bounds := .square 2 5 }
  valid := rfl

/-- The particle is scored at the nearest corner of the square, and the corner is reported when it
    is better than the origin. -/
theorem awayFromOrigin_reports_contained :
    let opt := awayFromOrigin fun p => -p.x - p.y
    let r : RunResult := ⟨⟨⟨2, 2⟩, -4⟩, ⟨#[-4]⟩⟩
    (opt.runWith (Generator.ofWords [0]) ⟨(), #[]⟩).1 = .ok r ∧
      r.best.point ≠ .origin ∧
      (r.best.point = .origin ∨ opt.config.bounds.contains r.best.point = true ∨
        (∃ a, (r.best.point.along a).isNaN = true) ∧
          opt.objective.GivesFinite r.best.point) := by
  intro opt r
  have hok : (opt.runWith (Generator.ofWords [0]) ⟨(), #[]⟩).1 = .ok r :=
    Attempt.eq_ok_of_toOption (by decide +kernel)
  exact ⟨hok, by decide, runWith_reports_origin_or_contained hok⟩

/-- The origin is reported when it is better than the corner, although it lies outside. -/
theorem awayFromOrigin_reports_origin_outside :
    let opt := awayFromOrigin fun p => 1 * p.x + 1 * p.y + 0
    let r : RunResult := ⟨⟨.origin, 0⟩, ⟨#[0]⟩⟩
    (opt.runWith (Generator.ofWords [0]) ⟨(), #[]⟩).1 = .ok r ∧
      opt.config.bounds.contains r.best.point = false := by
  intro opt r
  exact ⟨Attempt.eq_ok_of_toOption (by decide +kernel), by decide +kernel⟩

end Optimizer

end ParticleSwarm
