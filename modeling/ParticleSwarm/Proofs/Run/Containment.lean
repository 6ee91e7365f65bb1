import ParticleSwarm.Optimizer
import ParticleSwarm.Proofs.Particle.Motion
import ParticleSwarm.Proofs.Swarm.Operations

/-!
# Whether positions stay within bounds

Clamping brings every number within bounds and leaves NaN alone, so after any number of steps the
confined positions lie within bounds exactly when no velocity has clashed on the way.  Up to the
first clash all coordinates are numbers after a move and all are finite after a pass, whatever the
objective says and whether or not it fails; a clash makes a NaN coordinate that the next clamping
leaves outside.
-/

namespace ParticleSwarm

open Double

/-- All coefficients and all ends of the axes are at most `1e120` in size. -/
structure Config.Moderate (config : Config) : Prop where
  coefficients : ∀ w, Double.Moderate (config.coefficients.value w)
  min : ∀ a, Double.Moderate (config.bounds.min.along a)
  max : ∀ a, Double.Moderate (config.bounds.max.along a)

namespace Swarm

variable {σ γ : Type} {o : Objective σ} {b : Bounds} {c : Coefficients} {s : Swarm}

/-- All coordinates are numbers, and those of remembered points are finite. -/
structure Healthy (b : Bounds) (c : Coefficients) (s : Swarm) : Prop where
  bounds : s.bounds = b
  coefficients : s.coefficients = c
  leader : b.Spans s.leader.point
  particles : ∀ p ∈ s.particles, p.Healthy b

/-- In addition the particles are confined. -/
structure Confined (b : Bounds) (c : Coefficients) (s : Swarm) : Prop where
  bounds : s.bounds = b
  coefficients : s.coefficients = c
  leader : b.Spans s.leader.point
  particles : ∀ p ∈ s.particles, p.Confined b

theorem Confined.healthy (hb : b.Good) (h : s.Confined b c) : s.Healthy b c :=
  ⟨h.bounds, h.coefficients, h.leader, fun p hp => (h.particles p hp).healthy hb⟩

/-! ### Passes -/

theorem Healthy.confine (hb : b.Good) (h : s.Healthy b c) : s.confine.Confined b c := by
  refine ⟨h.bounds, h.coefficients, h.leader, fun p hp => ?_⟩
  obtain ⟨q, hq, rfl⟩ := List.mem_map.mp hp
  rw [h.bounds]
  exact (h.particles q hq).confine hb

theorem Confined.evaluate {st : Stage σ γ} (h : st.swarm.Confined b c) :
    (Swarm.evaluate o st).2.swarm.Confined b c where
  bounds := h.bounds
  coefficients := h.coefficients
  leader := h.leader
  particles := forall_particles_evaluate h.particles fun _ hp _ => hp.rememberPosition

theorem Confined.refresh {st : Stage σ γ} (h : st.swarm.Confined b c) :
    (Swarm.refresh o st).2.swarm.Confined b c where
  bounds := h.bounds
  coefficients := h.coefficients
  leader := leader_refresh h.leader fun p hp => (h.particles p hp).personalBest
  particles := h.particles

/-- A pass confines a healthy swarm, also when the objective fails half way. -/
theorem Healthy.pass (hb : b.Good) {st : Stage σ γ} (h : st.swarm.Healthy b c) :
    (Swarm.pass o st).2.swarm.Confined b c :=
  pass_invariant (fun st => st.swarm.Confined b c) (h.confine hb)
    (fun _ => Confined.evaluate) fun _ => Confined.refresh

variable [WordSource γ]

/-! ### Moves -/

def Clashes (s : Swarm) (g : γ) : Prop :=
  ∃ j p, s.particles[j]? = some p ∧
    Particle.ClashesOn s.coefficients s.leader.point p (WordSource.skip (4 * j) g)

theorem getElem?_particles_move (s : Swarm) (g : γ) (j : Nat) :
    (s.accelerate g).1.advance.particles[j]? = s.particles[j]?.map
      (Particle.move s.coefficients s.leader.point (WordSource.skip (4 * j) g)) := by
  rw [accelerate_apply, advance, List.getElem?_map, List.getElem?_mapIdx, Option.map_map]
  rfl

section Move

variable (hb : b.Good) (hc : ∀ w, (c.value w).isFinite = true) (h : s.Confined b c) (g : γ)
include hb hc h

/-- Without a clash, a move leads from a confined swarm to a healthy one. -/
theorem Confined.healthy_move (hclash : ¬ s.Clashes g) :
    (s.accelerate g).1.advance.Healthy b c := by
  refine ⟨h.bounds, h.coefficients, h.leader, fun p' hp' => ?_⟩
  obtain ⟨j, hj⟩ := List.mem_iff_getElem?.mp hp'
  rw [getElem?_particles_move, Option.map_eq_some_iff] at hj
  obtain ⟨p, hp, rfl⟩ := hj
  rw [← h.coefficients] at hc
  refine (h.particles p (List.mem_of_getElem? hp)).healthy_move hc hb h.leader _ ?_
  exact fun hclashes => hclash ⟨j, p, hp, hclashes⟩

/-- A clash leads to a position that clamping does not bring within bounds. -/
theorem Confined.exists_not_contained (hclash : s.Clashes g) :
    ∃ p ∈ (s.accelerate g).1.advance.confine.particles, b.contains p.position = false := by
  obtain ⟨j, p, hp, hclashes⟩ := hclash
  let p' := p.move s.coefficients s.leader.point (WordSource.skip (4 * j) g)
  have hmoved : (s.accelerate g).1.advance.particles[j]? = some p' := by
    rw [getElem?_particles_move, hp, Option.map_some]
  have hmem : p'.confine b ∈ (s.accelerate g).1.advance.confine.particles := by
    rw [← h.bounds]
    exact List.mem_map_of_mem (List.mem_of_getElem? hmoved)
  rw [← h.coefficients] at hc
  have hconfined := h.particles p (List.mem_of_getElem? hp)
  exact ⟨_, hmem, hconfined.not_contains_move hc hb h.leader _ hclashes⟩

theorem Confined.not_clashes_of_leeway {w q : ℚ} (hroom : Particle.Leeway w w q)
    (hmin : ∀ a, AtMost q (b.min.along a)) (hmax : ∀ a, AtMost q (b.max.along a))
    (hcoefficients : ∀ kind, AtMost w (c.value kind)) : ¬ s.Clashes g := by
  rintro ⟨j, p, hp, hclashes⟩
  rw [← h.coefficients] at hc hcoefficients
  have hconfined := h.particles p (List.mem_of_getElem? hp)
  exact hconfined.not_clashesOn_of_leeway hc hb h.leader _ hroom hmin hmax hcoefficients hclashes

end Move

/-! ### Runs -/

/-- The step from a stage gets past its pass and then draws a velocity that clashes. -/
def ClashesAt (o : Objective σ) (st : Stage σ γ) : Prop :=
  (pass o st).1 = .ok () ∧ (pass o st).2.swarm.Clashes (pass o st).2.generator

/-- The stage after a start and a number of steps, of which any may fail. -/
def after (o : Objective σ) (st : Stage σ γ) : Nat → Stage σ γ
  | 0 => (start o st).2
  | n + 1 => (step o (after o st n)).2

theorem Healthy.contained (hb : b.Good) (h : s.Healthy b c) :
    ∀ p ∈ s.confine.particles, b.contains p.position = true :=
  fun p hp => ((h.confine hb).particles p hp).position

section Step

variable {st : Stage σ γ} (hb : b.Good) (hc : ∀ w, (c.value w).isFinite = true)
  (h : st.swarm.Healthy b c)
include hb hc h

/-- What a step preserves unless it clashes, also when it fails. -/
theorem Healthy.step (hclash : ¬ ClashesAt o st) : (Swarm.step o st).2.swarm.Healthy b c := by
  have hpass : (Swarm.pass o st).2.swarm.Confined b c := h.pass hb
  rcases hok : (Swarm.pass o st).1 with e | ⟨⟨⟩⟩
  · rw [Swarm.step, Attempt.bind_of_error hok]
    exact hpass.healthy hb
  · rw [step_of_pass hok]
    exact hpass.healthy_move hb hc _ fun hclashes => hclash ⟨hok, hclashes⟩

theorem Healthy.exists_not_contained_step (hclash : ClashesAt o st) :
    ∃ p ∈ (Swarm.step o st).2.swarm.confine.particles, b.contains p.position = false := by
  obtain ⟨hok, hclashes⟩ := hclash
  rw [step_of_pass hok]
  exact (h.pass hb).exists_not_contained hb hc _ hclashes

end Step

/-- New particles are healthy.  When the sampler cannot be built there are none. -/
theorem healthy_scatter (st : Stage σ γ) (hb : st.swarm.bounds.Good) :
    (scatter st).2.swarm.Healthy st.swarm.bounds st.swarm.coefficients := by
  have hfresh := fresh_scatter st
  have hsetup : (scatter st).2.swarm.setup = st.swarm.setup := leads_scatter_sameSetup st
  have hnumber : ∀ p ∈ (scatter st).2.swarm.particles, p.position.IsNumber := by
    rw [scatter_apply]
    cases hbuild : Sampler.build st.swarm.bounds st.swarm.sampling with
    | error e =>
      intro p hp
      cases hp
    | ok sampler =>
      intro p hp
      obtain ⟨x, hx, rfl⟩ := List.mem_map.mp hp
      exact Sampler.isNumber_of_mem_drawMany (Sampler.isNumber_draw hb hbuild) _ _ hx
  refine ⟨congrArg Prod.fst hsetup, congrArg (·.2.1) hsetup, ?_, fun p hp => ?_⟩
  · rw [hfresh.leader]
    exact Bounds.spans_origin _
  · have hposition := hnumber p hp
    rw [hfresh.particles p hp]
    have horigin := Bounds.spans_origin st.swarm.bounds
    exact ⟨hposition, (hb.isFinite_of_spans horigin).isNumber, horigin⟩

theorem healthy_start (o : Objective σ) (st : Stage σ γ) (hb : st.swarm.bounds.Good) :
    (start o st).2.swarm.Healthy st.swarm.bounds st.swarm.coefficients := by
  have hscatter := healthy_scatter st hb
  rcases hok : (scatter st).1 with e | ⟨⟨⟩⟩
  · rw [start, Attempt.bind_of_error hok]
    exact hscatter
  · rw [start, Attempt.bind_of_ok hok]
    exact (hscatter.pass hb).healthy hb

/-- As long as no healthy stage has led to a clash, all stages of a run are healthy. -/
theorem healthy_after {st : Stage σ γ} {n : Nat} (hb : b.Good)
    (hc : ∀ w, (c.value w).isFinite = true) (hstart : (after o st 0).swarm.Healthy b c)
    (hnot : ∀ t < n, (after o st t).swarm.Healthy b c → ¬ ClashesAt o (after o st t)) (t : Nat)
    (ht : t ≤ n) : (after o st t).swarm.Healthy b c := by
  induction t with
  | zero => exact hstart
  | succ t ih =>
    have hhealthy := ih (Nat.le_of_succ_le ht)
    exact hhealthy.step hb hc (hnot t ht hhealthy)

/-- **Positions are within bounds after every clamping** exactly when no step has drawn a velocity
    that clashes.  The clamping of the start always brings them within bounds. -/
theorem contained_iff_never_clashes {config : Config} (hvalid : config.validate = .ok ())
    (o : Objective σ) (session : Session σ) (g : γ) (n : Nat) :
    let st := Optimizer.stage config session g
    (∀ p ∈ (scatter st).2.swarm.confine.particles, config.bounds.contains p.position = true) ∧
      ((∀ t ≤ n, ∀ p ∈ (after o st t).swarm.confine.particles,
          config.bounds.contains p.position = true) ↔
        ∀ t < n, ¬ ClashesAt o (after o st t)) := by
  intro st
  obtain ⟨-, hc, hb⟩ := Config.validate_eq_ok_iff.mp hvalid
  have hstart : (after o st 0).swarm.Healthy config.bounds config.coefficients :=
    healthy_start o st hb
  refine ⟨(healthy_scatter st hb).contained hb, ?_, ?_⟩
  · intro hcontained
    have hnot : ∀ t < n, (after o st t).swarm.Healthy config.bounds config.coefficients →
        ¬ ClashesAt o (after o st t) := by
      intro t ht hhealthy hclash
      obtain ⟨p, hp, hout⟩ := hhealthy.exists_not_contained_step hb hc hclash
      rw [hcontained (t + 1) ht p hp] at hout
      cases hout
    intro t ht
    exact hnot t ht (healthy_after hb hc hstart hnot t ht.le)
  · intro hnever t ht
    have hhealthy := healthy_after hb hc hstart (fun t ht _ => hnever t ht) t ht
    exact hhealthy.contained hb

/-- Whenever no number of the configuration is larger than `1e120`, positions are within bounds
    after every clamping. -/
theorem contained_of_moderate {config : Config} (hvalid : config.validate = .ok ())
    (hmoderate : config.Moderate) (o : Objective σ) (session : Session σ) (g : γ) (t : Nat) :
    ∀ p ∈ (after o (Optimizer.stage config session g) t).swarm.confine.particles,
      config.bounds.contains p.position = true := by
  obtain ⟨-, hc, hb⟩ := Config.validate_eq_ok_iff.mp hvalid
  let st := Optimizer.stage config session g
  have hstart : (after o st 0).swarm.Healthy config.bounds config.coefficients :=
    healthy_start o st hb
  have hnot : ∀ n < t, (after o st n).swarm.Healthy config.bounds config.coefficients →
      ¬ ClashesAt o (after o st n) := by
    intro n _ hhealthy hclash
    exact (hhealthy.pass hb).not_clashes_of_leeway hb hc _
      (Particle.leeway_two_pow (by decide)) (fun a => (hmoderate.min a).atMost)
      (fun a => (hmoderate.max a).atMost) (fun w => (hmoderate.coefficients w).atMost) hclash.2
  exact (healthy_after hb hc hstart hnot t le_rfl).contained hb

def lonely (coefficients : Coefficients) : Config where
  populationSize := 1
  coefficients := coefficients
  bounds := .square (-10) 10

def sphere : Objective Unit := .ofFunction fun p => .ok (p.x * p.x + p.y * p.y)

/-- With the default coefficients the particle stays on the square for two steps, so neither of
    them clashes. -/
theorem lonely_never_clashes :
    let st := Optimizer.stage (lonely {}) ⟨(), #[]⟩ (Generator.ofWords [0x8000000000000000])
    (lonely {}).validate = .ok () ∧
      (∀ t ≤ 2, ∀ p ∈ (after sphere st t).swarm.confine.particles,
        (lonely {}).bounds.contains p.position = true) ∧
      ∀ t < 2, ¬ ClashesAt sphere (after sphere st t) := by
  intro st
  have hvalid : (lonely {}).validate = .ok () := Attempt.eq_ok_of_toOption (by decide +kernel)
  have hcontained : ∀ t ≤ 2, ∀ p ∈ (after sphere st t).swarm.confine.particles,
      (lonely {}).bounds.contains p.position = true := by
    decide +kernel
  exact ⟨hvalid, hcontained,
    (contained_iff_never_clashes hvalid sphere _ _ 2).2.mp hcontained⟩

/-- With weights of different sign that both overflow, the first step clashes and clamping leaves
    the particle outside. -/
theorem lonely_not_contained :
    let config := lonely ⟨0, 1e308, -1e308⟩
    let st := Optimizer.stage config ⟨(), #[]⟩ (Generator.ofWords [0x8000000000000000])
    config.validate = .ok () ∧ (start sphere st).1 = .ok () ∧
      ∃ p ∈ (after sphere st 1).swarm.confine.particles, config.bounds.contains p.position = false := by
  intro config st
  exact ⟨Attempt.eq_ok_of_toOption (by decide +kernel),
    Attempt.eq_ok_of_toOption (by decide +kernel), by decide +kernel⟩

end Swarm

end ParticleSwarm
