import ParticleSwarm.Proofs.Run.Containment
import ParticleSwarm.Proofs.Run.Draws

/-!
# Runs on the test landscapes stay finite

On the domain of a test function, and with the default coefficients, no coordinate ever becomes NaN
or infinite.  One invariant carries this: after each pass positions lie in the domain, and velocities
and the two points that pull do so or are zero.  It bounds the new velocities, by a number that
depends on the domain only, and so the positions after the move, which the next pass brings back.
-/

namespace ParticleSwarm

open Double

/-! ### Domains -/

namespace Bounds

def reach (b : Bounds) : Float :=
  Max.max (Max.max b.min.x.abs b.max.x.abs) (Max.max b.min.y.abs b.max.y.abs)

def speedLimit (b : Bounds) : Float := 7 * b.reach

def Limits (b : Bounds) (v : Point) : Prop :=
  ∀ a, -b.speedLimit < v.along a ∧ v.along a < b.speedLimit

/-- A domain of reach `n` around the origin, with a uniform range along each axis whose scale is
    `3 * n` at most. -/
structure Surveyed (b : Bounds) (n : Nat) : Prop where
  good : b.Good
  origin : b.contains .origin = true
  positive : 0 < n
  digits : 40 * n < 2 ^ 53
  min : ∀ a, AtMost n (b.min.along a)
  max : ∀ a, AtMost n (b.max.along a)
  range : ∀ a, ∃ r, Sampler.rangeAlong b a = .ok r ∧ AtMost n r.low ∧ AtMost (3 * n) r.scale
  limit : 0 ≤ b.speedLimit ∧ size b.speedLimit = 7 * n
  neg_limit : -b.speedLimit ≤ 0 ∧ size (-b.speedLimit) = 7 * n

variable {b : Bounds} {n : Nat}

namespace Surveyed

theorem representable (h : b.Surveyed n) {k : Nat} (hk : k ≤ 40) : Representable (k * n / 4) := by
  have hlt : k * n < 2 ^ 53 := (Nat.mul_le_mul_right n hk).trans_lt h.digits
  have hquarters := representable_quarters hlt
  push_cast at hquarters
  exact hquarters

theorem atMost_of_spans (h : b.Surveyed n) {v : Point} (hv : b.Spans v) (a : Axis) :
    AtMost n (v.along a) := hv.atMost (h.min a) (h.max a)

/-- The default coefficients leave room for a velocity. -/
theorem leeway (h : b.Surveyed n) : Particle.Leeway (3 / 4) (3 / 2) n := by
  have hquarters (k : Nat) (hk : k ≤ 40) {q : ℚ} (hq : k * n / 4 = q) : Representable q :=
    hq ▸ h.representable hk
  have hweight : ((6 : Nat) : ℚ) / 4 = 3 / 2 := by norm_num
  exact {
    weight := hweight ▸ representable_quarters (by decide)
    difference := hquarters 8 (by decide) (by push_cast; ring)
    part := hquarters 12 (by decide) (by push_cast; ring)
    damped := hquarters 3 (by decide) (by push_cast; ring)
    own := hquarters 15 (by decide) (by push_cast; ring)
    whole := hquarters 27 (by decide) (by push_cast; ring) }

theorem contains_of_spans (h : b.Surveyed n) {v : Point} (hv : b.Spans v) :
    b.contains v = true := by
  rw [contains_iff]
  intro a
  rcases hv a with hzero | hinside
  · have horigin := contains_iff.mp h.origin a
    rw [hzero]
    cases a <;> exact horigin
  · exact hinside

theorem limits (h : b.Surveyed n) {v : Point} (hv : ∀ a, AtMost (27 * n / 4) (v.along a)) :
    b.Limits v := by
  intro a
  have hpositive : (0 : ℚ) < n := by exact_mod_cast h.positive
  have hbelow : size (v.along a) < 7 * n := (hv a).size_le.trans_lt (by linarith)
  obtain ⟨hup, hsize⟩ := h.limit
  obtain ⟨hdown, hsize'⟩ := h.neg_limit
  constructor
  · rw [← hsize'] at hbelow
    exact (AtMost.lt_of_size_lt (hv a).isFinite hbelow).2 hdown
  · rw [← hsize] at hbelow
    exact (AtMost.lt_of_size_lt (hv a).isFinite hbelow).1 hup

end Surveyed

end Bounds

namespace Benchmark

def extent : Benchmark → Nat
  | booth | crossInTray | holderTable => 10
  | mcCormick => 4
  | eggholder => 512

/-- The domains of all test functions are surveyed, case by case. -/
theorem surveyed (b : Benchmark) : b.bounds.Surveyed b.extent where
  good := by
    apply Bounds.validate_eq_ok_iff.mp
    apply Attempt.eq_ok_of_toOption
    cases b <;> decide +kernel
  origin := by cases b <;> decide +kernel
  positive := by cases b <;> decide
  digits := by cases b <;> decide
  min a := by cases b <;> cases a <;> decide +kernel
  max a := by cases b <;> cases a <;> decide +kernel
  range a := by
    have hrange : ((Sampler.rangeAlong b.bounds a).toOption.any fun r =>
        decide (AtMost b.extent r.low ∧ AtMost (3 * b.extent) r.scale)) = true := by
      cases b <;> cases a <;> decide +kernel
    obtain ⟨r, hr, hsizes⟩ := (Option.any_eq_true _ _).mp hrange
    exact ⟨r, Attempt.eq_ok_of_toOption hr, of_decide_eq_true hsizes⟩
  limit := by cases b <;> decide +kernel
  neg_limit := by cases b <;> decide +kernel

end Benchmark

/-! ### Finite swarms -/

/-- No coordinate is NaN or infinite. -/
structure Particle.IsFinite (p : Particle) : Prop where
  position : p.position.IsFinite
  velocity : p.velocity.IsFinite
  personalBest : p.personalBest.IsFinite

/-- No coordinate of a particle or of the leader is NaN or infinite. -/
structure Swarm.IsFinite (s : Swarm) : Prop where
  leader : s.leader.point.IsFinite
  particles : ∀ p ∈ s.particles, p.IsFinite

/-- The invariant of a run with the default coefficients, where a pass begins. -/
structure Swarm.Sane (b : Bounds) (s : Swarm) : Prop where
  healthy : s.Healthy b {}
  isFinite : s.IsFinite

theorem Swarm.Confined.isFinite {b : Bounds} {c : Coefficients} {s : Swarm} (hb : b.Good)
    (h : s.Confined b c) : s.IsFinite where
  leader := hb.isFinite_of_spans h.leader
  particles p hp :=
    have hconfined := h.particles p hp
    ⟨hb.isFinite_of_contains hconfined.position, hb.isFinite_of_spans hconfined.velocity,
      hb.isFinite_of_spans hconfined.personalBest⟩

theorem Swarm.Sane.confined_pass {σ γ : Type} {b : Bounds} {o : Objective σ} {st : Stage σ γ}
    (hb : b.Good) (h : st.swarm.Sane b) : (Swarm.pass o st).2.swarm.Confined b {} :=
  h.healthy.pass hb

/-! ### Phases -/

namespace Swarm

variable {σ γ : Type} [WordSource γ]

/-- Each particle gets its new velocity from some place in the words. -/
theorem exists_of_mem_accelerate {s : Swarm} {g : γ} {p' : Particle}
    (hp' : p' ∈ (s.accelerate g).1.particles) :
    ∃ p ∈ s.particles, ∃ g' : γ, p' = (p.accelerate s.coefficients s.leader.point g').1 := by
  rw [accelerate_apply] at hp'
  obtain ⟨j, hj, rfl⟩ := List.mem_mapIdx.mp hp'
  exact ⟨_, List.getElem_mem hj, _, rfl⟩

/-- The swarm of a step when it has got its new velocities. -/
def drawn (o : Objective σ) (st : Stage σ γ) : Swarm :=
  ((pass o st).2.swarm.accelerate (pass o st).2.generator).1

/-- What a step makes of a swarm, one phase after the other: it is confined, evaluated, given its
    leader and its new velocities, and moved.  In the midst of a phase every particle is as before
    the phase or as after it.  An objective that fails stops a phase half way. -/
def phases (o : Objective σ) (st : Stage σ γ) : List Swarm :=
  [st.swarm, st.swarm.confine, (evaluate o { st with swarm := st.swarm.confine }).2.swarm,
    (pass o st).2.swarm, drawn o st, (drawn o st).advance]

theorem swarm_step_mem_phases (o : Objective σ) (st : Stage σ γ) :
    (step o st).2.swarm ∈ phases o st := by
  rcases hok : (pass o st).1 with e | ⟨⟨⟩⟩
  · rw [step, Attempt.bind_of_error hok]
    simp [phases]
  · rw [step_of_pass hok]
    simp [phases, drawn]

end Swarm

section Surveyed

variable {b : Bounds} {n : Nat} (hb : b.Surveyed n)
include hb

/-! ### Drawn positions -/

theorem Sampler.exists_build (way : Sampling) : ∃ sampler, build b way = .ok sampler := by
  cases way with
  | splitFromZero => exact ⟨_, rfl⟩
  | uniform =>
    obtain ⟨x, hx, -⟩ := hb.range .x
    obtain ⟨y, hy, -⟩ := hb.range .y
    exact ⟨.uniform x y, Attempt.outcome_bind_eq_ok.mpr ⟨x, hx,
      Attempt.outcome_bind_eq_ok.mpr ⟨y, hy, rfl⟩⟩⟩

theorem Sampler.isFinite_coordinate {way : Sampling} {sampler : Sampler}
    (hbuild : build b way = .ok sampler) (first second : UInt64) (a : Axis) :
    (sampler.coordinate first second a).isFinite = true := by
  cases way with
  | splitFromZero =>
    cases hbuild
    have hscaled {v : Float} (hv : AtMost n v) : (unitInterval first * v).isFinite = true :=
      ((atMost_unitInterval first).mul (hb.representable (k := 4) (by decide)) hv
        (by linarith)).isFinite
    rw [coordinate]
    split
    case isTrue => exact hscaled (hb.max a)
    case isFalse => exact hscaled (hb.min a)
  | uniform =>
    have hsample {a : Axis} {r : UniformRange} (hr : rangeAlong b a = .ok r) :
        (r.sample first).isFinite = true := by
      obtain ⟨r', hr', hlow, hscale⟩ := hb.range a
      obtain rfl : r' = r := Except.ok.inj (hr'.symm.trans hr)
      have hproduct : AtMost (36 * n / 4) (unitSpan first * r'.scale) :=
        (atMost_unitSpan first).mul (hb.representable (k := 36) (by decide)) hscale (by linarith)
      exact (hproduct.add (hb.representable (k := 40) (by decide)) hlow (by linarith)).isFinite
    obtain ⟨x, hx, hbuild⟩ := Attempt.outcome_bind_eq_ok.mp hbuild
    obtain ⟨y, hy, hbuild⟩ := Attempt.outcome_bind_eq_ok.mp hbuild
    cases hbuild
    cases a with
    | x => exact hsample hx
    | y => exact hsample hy

section Stages

variable {σ γ : Type} [WordSource γ]

theorem Swarm.isFinite_scatter {st : Stage σ γ} (hbounds : st.swarm.bounds = b) :
    (scatter st).2.swarm.IsFinite := by
  obtain ⟨sampler, hbuild⟩ := Sampler.exists_build hb st.swarm.sampling
  have hbuild' : Sampler.build st.swarm.bounds st.swarm.sampling = .ok sampler := by
    rw [hbounds, hbuild]
  have horigin : Point.origin.IsFinite := hb.good.isFinite_of_spans b.spans_origin
  rw [scatter_of_built hbuild']
  refine ⟨horigin, fun p hp => ?_⟩
  obtain ⟨j, -, rfl⟩ := List.mem_map.mp hp
  refine ⟨fun a => ?_, horigin, horigin⟩
  change ((sampler.draw _).1.along a).isFinite = true
  rw [Sampler.draw_apply, Point.along_ofAxes]
  exact Sampler.isFinite_coordinate hb hbuild _ _ a

/-! ### Moves -/

section Moves

variable {p : Particle} {globalBest : Point} (hp : p.Confined b) (hglobal : b.Spans globalBest)
  (g : γ)
include hp hglobal

/-- With the default coefficients, a particle on a domain of reach `n` gets a velocity of at most
    `27/4 * n` along each axis. -/
theorem Particle.Confined.atMost_velocity (a : Axis) :
    AtMost (27 * n / 4) ((p.accelerate {} globalBest g).1.velocity.along a) := by
  rw [velocity_accelerate]
  refine (hb.leeway.atMost_pull (by decide +kernel) (by decide +kernel) (by decide +kernel)
    (hb.atMost_of_spans (Bounds.spans_of_contains hp.position) a)
    (hb.atMost_of_spans hp.velocity a) (hb.atMost_of_spans hp.personalBest a)
    (hb.atMost_of_spans hglobal a) (atMost_unitInterval _) (atMost_unitInterval _)).mono ?_
  linarith

theorem Particle.Confined.isFinite_accelerate : (p.accelerate {} globalBest g).1.IsFinite where
  position := hb.good.isFinite_of_contains hp.position
  velocity a := (hp.atMost_velocity hb hglobal g a).isFinite
  personalBest := hb.good.isFinite_of_spans hp.personalBest

theorem Particle.Confined.isFinite_move : (p.move {} globalBest g).IsFinite where
  position a := by
    have hposition := hb.atMost_of_spans (Bounds.spans_of_contains hp.position) a
    have hvelocity := hp.atMost_velocity hb hglobal g a
    have hsum : (p.move {} globalBest g).position.along a =
        p.position.along a + (p.accelerate {} globalBest g).1.velocity.along a :=
      Point.along_ofAxes _ a
    rw [hsum]
    exact (hposition.add (hb.representable (k := 31) (by decide)) hvelocity (by linarith)).isFinite
  velocity := (hp.isFinite_accelerate hb hglobal g).velocity
  personalBest := hb.good.isFinite_of_spans hp.personalBest

end Moves

namespace Swarm

section Confined

variable {s : Swarm} (h : s.Confined b {}) (g : γ)
include h

theorem Confined.isFinite_accelerate : (s.accelerate g).1.IsFinite where
  leader := hb.good.isFinite_of_spans h.leader
  particles p' hp' := by
    obtain ⟨p, hp, g', rfl⟩ := exists_of_mem_accelerate hp'
    rw [h.coefficients]
    exact (h.particles p hp).isFinite_accelerate hb h.leader g'

theorem Confined.limits_accelerate : ∀ p ∈ (s.accelerate g).1.particles, b.Limits p.velocity := by
  intro p' hp'
  obtain ⟨p, hp, g', rfl⟩ := exists_of_mem_accelerate hp'
  rw [h.coefficients]
  exact hb.limits ((h.particles p hp).atMost_velocity hb h.leader g')

theorem Confined.isFinite_move : (s.accelerate g).1.advance.IsFinite where
  leader := hb.good.isFinite_of_spans h.leader
  particles p' hp' := by
    obtain ⟨q, hq, rfl⟩ := List.mem_map.mp hp'
    obtain ⟨p, hp, g', rfl⟩ := exists_of_mem_accelerate hq
    rw [h.coefficients]
    exact (h.particles p hp).isFinite_move hb h.leader g'

theorem Confined.healthy_of_move : (s.accelerate g).1.advance.Healthy b {} where
  bounds := h.bounds
  coefficients := h.coefficients
  leader := h.leader
  particles p' hp' := by
    have hfinite := (h.isFinite_move hb g).particles p' hp'
    obtain ⟨q, hq, rfl⟩ := List.mem_map.mp hp'
    obtain ⟨p, hp, g', rfl⟩ := exists_of_mem_accelerate hq
    exact ⟨hfinite.position.isNumber, hfinite.velocity.isNumber, (h.particles p hp).personalBest⟩

end Confined

/-! ### Runs -/

variable {o : Objective σ} {st : Stage σ γ}

/-- Within a step no phase makes a coordinate infinite, the move included. -/
theorem Sane.isFinite_phases (h : st.swarm.Sane b) : ∀ s ∈ phases o st, s.IsFinite := by
  have hconfined := h.healthy.confine hb.good
  have hpassed := h.confined_pass (o := o) hb.good
  simp only [phases, List.forall_mem_cons, List.not_mem_nil, false_implies, implies_true, and_true]
  exact ⟨h.isFinite, hconfined.isFinite hb.good, hconfined.evaluate.isFinite hb.good,
    hpassed.isFinite hb.good, hpassed.isFinite_accelerate hb _, hpassed.isFinite_move hb _⟩

theorem Sane.limits_drawn (h : st.swarm.Sane b) :
    ∀ p ∈ (drawn o st).particles, b.Limits p.velocity :=
  (h.confined_pass hb.good).limits_accelerate hb _

/-- The invariant of a step.  A failed one has stopped in its pass and has left the swarm
    confined. -/
theorem Sane.step (h : st.swarm.Sane b) : (Swarm.step o st).2.swarm.Sane b := by
  refine ⟨?_, h.isFinite_phases hb _ (swarm_step_mem_phases o st)⟩
  have hpassed := h.confined_pass (o := o) hb.good
  rcases hok : (Swarm.pass o st).1 with e | ⟨⟨⟩⟩
  · rw [Swarm.step, Attempt.bind_of_error hok]
    exact hpassed.healthy hb.good
  · rw [step_of_pass hok]
    exact hpassed.healthy_of_move hb _

section Run

variable (hbounds : st.swarm.bounds = b) (hcoefficients : st.swarm.coefficients = {})
include hbounds hcoefficients

theorem sane_scatter : (scatter st).2.swarm.Sane b := by
  refine ⟨?_, isFinite_scatter hb hbounds⟩
  have hgood := hb.good
  rw [← hbounds] at hgood
  have hhealthy := healthy_scatter st hgood
  rw [hbounds, hcoefficients] at hhealthy
  exact hhealthy

theorem confined_start (o : Objective σ) : (start o st).2.swarm.Confined b {} := by
  obtain ⟨sampler, hbuild⟩ := Sampler.exists_build hb st.swarm.sampling
  rw [← hbounds] at hbuild
  have hok : (scatter st).1 = .ok () := by rw [scatter_of_built hbuild]
  rw [start, Attempt.bind_of_ok hok]
  exact (sane_scatter hb hbounds hcoefficients).confined_pass hb.good

/-- By induction on the number of steps, from the start. -/
theorem sane_stageAfter (o : Objective σ) (k : Nat) :
    (Optimizer.stageAfter o 0 (start o st).2 k).swarm.Sane b := by
  induction k with
  | zero =>
    have hstarted := confined_start hb hbounds hcoefficients o
    exact ⟨hstarted.healthy hb.good, hstarted.isFinite hb.good⟩
  | succ k ih =>
    rw [Optimizer.stageAfter, Optimizer.swarm_recordedStep]
    exact ih.step hb

end Run

end Swarm

end Stages

end Surveyed

/-! ### The test landscapes -/

namespace Optimizer

variable {σ γ : Type} [WordSource γ]

/-- The stages of a run at which a pass begins: the one of the new particles, and those after the
    start and after each step. -/
def Passes (o : Objective σ) (st : Stage σ γ) (x : Stage σ γ) : Prop :=
  x = (Swarm.scatter st).2 ∨ ∃ k, x = stageAfter o 0 (Swarm.start o st).2 k

/-- **Runs on a test landscape stay finite.**  On the domain of a test function and with the default
    coefficients the sampler is always built.  From every stage at which a pass begins, all
    coordinates are finite in every phase of a step, whatever the objective says and wherever it
    fails; new velocities are below the limit of the domain; and a run that succeeds reports a
    point of the domain. -/
theorem runWith_stays_finite {opt : Optimizer σ} {b : Benchmark}
    (hbounds : opt.config.bounds = b.bounds) (hcoefficients : opt.config.coefficients = {})
    (session : Session σ) (g : γ) :
    let o := opt.objective
    let st := stage opt.config session g
    (∃ sampler, Sampler.build st.swarm.bounds st.swarm.sampling = .ok sampler) ∧
    (∀ x, Passes o st x →
      (∀ s ∈ Swarm.phases o x, s.IsFinite) ∧
      ∀ p ∈ (Swarm.drawn o x).particles, b.bounds.Limits p.velocity) ∧
    ∀ r, (opt.runWith g session).1 = .ok r → b.bounds.contains r.best.point = true := by
  intro o st
  have hb := b.surveyed
  have hsane (x : Stage σ γ) (hx : Passes o st x) : x.swarm.Sane b.bounds := by
    rcases hx with rfl | ⟨k, rfl⟩
    · exact Swarm.sane_scatter hb hbounds hcoefficients
    · exact Swarm.sane_stageAfter hb hbounds hcoefficients o k
  refine ⟨?_, fun x hx => ?_, fun r hr => ?_⟩
  · obtain ⟨sampler, hbuild⟩ := Sampler.exists_build hb st.swarm.sampling
    rw [← hbounds] at hbuild
    exact ⟨sampler, hbuild⟩
  · exact ⟨(hsane x hx).isFinite_phases hb, (hsane x hx).limits_drawn hb⟩
  · obtain ⟨-, -, hbest, -⟩ := course_eq_ok hr
    rw [hbest]
    exact hb.contains_of_spans (hsane _ (Or.inr ⟨_, rfl⟩)).healthy.leader

def hikers : Optimizer Unit where
  objective := .ofFunction fun p => .ok (p.x * p.x + p.y)
  name := "valley"
  config := { Config.forBenchmark .mcCormick with populationSize := 2, maxIterations := 2 }
  valid := Attempt.eq_ok_of_toOption (by decide +kernel)

/-- The domain reaches as far as `4`, and new velocities are below `28`. -/
theorem hikers_stay_finite :
    let b := Benchmark.mcCormick.bounds
    let g := Generator.ofWords [0xf000000000000000, 0x4000000000000000, 0x8000000000000000]
    let started := (Swarm.start hikers.objective (stage hikers.config ⟨(), #[]⟩ g)).2
    (hikers.config.bounds = b ∧ hikers.config.coefficients = {}) ∧
    (∀ s ∈ Swarm.phases hikers.objective started, s.IsFinite) ∧
    (b.speedLimit = 28 ∧
      ∀ p ∈ (Swarm.drawn hikers.objective started).particles, b.Limits p.velocity) ∧
    ∃ r, (hikers.runWith g ⟨(), #[]⟩).1 = .ok r ∧ b.contains r.best.point = true := by
  intro b g started
  obtain ⟨r, hr⟩ : ∃ r, (hikers.runWith g ⟨(), #[]⟩).1 = .ok r :=
    Attempt.exists_eq_ok_of_isSome (by decide +kernel)
  have hbounds : hikers.config.bounds = Benchmark.mcCormick.bounds := rfl
  have hcoefficients : hikers.config.coefficients = {} := rfl
  obtain ⟨-, hpasses, hreport⟩ := runWith_stays_finite hbounds hcoefficients ⟨(), #[]⟩ g
  obtain ⟨hphases, hlimits⟩ := hpasses started (Or.inr ⟨0, rfl⟩)
  exact ⟨⟨hbounds, hcoefficients⟩, hphases, ⟨by decide +kernel, hlimits⟩, r, hr, hreport r hr⟩

end Optimizer

end ParticleSwarm
