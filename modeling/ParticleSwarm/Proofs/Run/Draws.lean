import ParticleSwarm.Proofs.Run.Schedule

/-!
# Which random words a run reads

A point that splits from zero takes four words, a uniform one two, and a new velocity four.  Nothing
else draws, and nothing draws in between: not the objective, a clamped position or a tie.  So every
number drawn in a run sits at a fixed place in the words of its generator, which depends on the way
of sampling, the size of the swarm, the step, the particle and the axis only.
-/

namespace ParticleSwarm

open WordSource

/-! ### Counting words -/

theorem Generator.drawn_skip (n : Nat) (g : Generator) : (skip n g).drawn = g.drawn + n := by
  induction n generalizing g with
  | zero => rfl
  | succ n ih =>
    have hnext : (Generator.next g).2.drawn = g.drawn + 1 := by
      rcases g with ⟨stream | script, drawn⟩ <;> rfl
    rw [skip_succ, ih]
    change (Generator.next g).2.drawn + n = _
    rw [hnext]
    omega

def Axis.index : Axis → Nat
  | .x => 0
  | .y => 1

/-- The number of words that a sampled coordinate takes: a factor and a coin, or one word. -/
def Sampling.wordsPerAxis : Sampling → Nat
  | .splitFromZero => 2
  | .uniform => 1

def Sampling.words (way : Sampling) : Nat := 2 * way.wordsPerAxis

variable {γ : Type} [WordSource γ]

namespace Sampler

def way : Sampler → Sampling
  | splitFromZero _ => .splitFromZero
  | uniform _ _ => .uniform

/-- The coordinate that two words give.  A uniform one leaves the second word alone. -/
def coordinate (first second : UInt64) : Sampler → Axis → Float
  | splitFromZero b, a =>
    if coin second then unitInterval first * b.max.along a else unitInterval first * b.min.along a
  | uniform x _, .x => x.sample first
  | uniform _ y, .y => y.sample first

theorem way_of_build {b : Bounds} {way : Sampling} {sampler : Sampler}
    (h : build b way = .ok sampler) : sampler.way = way := by
  cases way with
  | splitFromZero =>
    cases h
    rfl
  | uniform =>
    obtain ⟨x, -, h⟩ := Attempt.outcome_bind_eq_ok.mp h
    obtain ⟨y, -, h⟩ := Attempt.outcome_bind_eq_ok.mp h
    cases h
    rfl

/-- The words of a sampled point, by their indices. -/
theorem draw_apply (sampler : Sampler) (g : γ) :
    sampler.draw g =
      (.ofAxes fun a =>
          let first := sampler.way.wordsPerAxis * a.index
          sampler.coordinate (word first g) (word (first + 1) g) a,
        skip sampler.way.words g) := by
  cases sampler <;> rfl

/-- Point `j` of many is drawn behind the words of the points before it. -/
theorem drawMany_apply (sampler : Sampler) (n : Nat) (g : γ) :
    sampler.drawMany n g =
      ((List.range n).map fun j => (sampler.draw (skip (sampler.way.words * j) g)).1,
        skip (sampler.way.words * n) g) := by
  induction n generalizing g with
  | zero => rfl
  | succ n ih =>
    have hskip (j : Nat) : skip (sampler.way.words * j) (sampler.draw g).2 =
        skip (sampler.way.words * (j + 1)) g := by
      rw [draw_apply, ← skip_add, Nat.mul_succ, Nat.add_comm]
    change ((sampler.draw g).1 :: (sampler.drawMany n (sampler.draw g).2).1,
      (sampler.drawMany n (sampler.draw g).2).2) = _
    rw [ih, List.range_succ_eq_map, List.map_cons, List.map_map]
    simp only [hskip]
    rfl

end Sampler

namespace Swarm

variable {σ : Type} {o : Objective σ} {st : Stage σ γ} {sampler : Sampler}

/-! ### Starting -/

theorem generator_start (o : Objective σ) (st : Stage σ γ) :
    (start o st).2.generator = (scatter st).2.generator := by
  rcases hok : (scatter st).1 with e | ⟨⟨⟩⟩
  · rw [start, Attempt.bind_of_error hok]
  · rw [start, Attempt.bind_of_ok hok, generator_pass]

/-- A start without a sampler draws nothing. -/
theorem generator_start_of_not_built {e : SearchError}
    (hbuild : Sampler.build st.swarm.bounds st.swarm.sampling = .error e) :
    (start o st).2.generator = st.generator := by
  rw [generator_start, scatter_apply, hbuild]

section Built

variable (hbuild : Sampler.build st.swarm.bounds st.swarm.sampling = .ok sampler)
include hbuild

theorem scatter_of_built :
    scatter st = (.ok (), { st with
      swarm := { st.swarm with
        particles := (List.range st.swarm.populationSize.toNat).map fun j =>
          .atRest (sampler.draw (skip (st.swarm.sampling.words * j) st.generator)).1
        leader := .none }
      generator :=
        skip (st.swarm.sampling.words * st.swarm.populationSize.toNat) st.generator }) := by
  have hdrawn : Course.draw (populate sampler) { st with swarm := st.swarm.cleared } =
      (.ok (), { st with
        swarm := { st.swarm with
          particles := (sampler.drawMany st.swarm.populationSize.toNat st.generator).1.map .atRest
          leader := .none }
        generator := (sampler.drawMany st.swarm.populationSize.toNat st.generator).2 }) := rfl
  rw [scatter_apply, hbuild]
  dsimp only
  rw [hdrawn, Sampler.drawMany_apply, Sampler.way_of_build hbuild, List.map_map]
  rfl

theorem generator_start_of_built (o : Objective σ) :
    (start o st).2.generator =
      skip (st.swarm.sampling.words * st.swarm.populationSize.toNat) st.generator := by
  rw [generator_start, scatter_of_built hbuild]

theorem exists_particle_of_built {j : Nat} (hj : j < st.swarm.populationSize.toNat) :
    ∃ p, (scatter st).2.swarm.particles[j]? = some p ∧ ∀ a,
      let first := st.swarm.sampling.words * j + st.swarm.sampling.wordsPerAxis * Axis.index a
      p.position.along a =
        sampler.coordinate (word first st.generator) (word (first + 1) st.generator) a := by
  rw [scatter_of_built hbuild, List.getElem?_map, List.getElem?_range hj, Option.map_some]
  refine ⟨_, rfl, fun a => ?_⟩
  change (sampler.draw _).1.along a = _
  rw [Sampler.draw_apply, Point.along_ofAxes, Sampler.way_of_build hbuild]
  dsimp only
  rw [word_skip, word_skip, Nat.add_assoc]

end Built

/-! ### Steps -/

/-- A step draws only after its pass, so one that fails has drawn nothing. -/
theorem generator_step_of_error {e : SearchError} (h : (step o st).1 = .error e) :
    (step o st).2.generator = st.generator := by
  have hstep : step o st = pass o st := step_eq_pass_of_not_ok (by simp [h])
  rw [hstep, generator_pass]

theorem generator_step_of_ok (h : (step o st).1 = .ok ()) :
    (step o st).2.generator = skip (4 * st.swarm.particles.length) st.generator := by
  have hlength : (pass o st).2.swarm.particles.length = st.swarm.particles.length :=
    leads_pass_sameCount o st
  rw [step_of_pass (pass_eq_ok_of_step h), accelerate_apply, generator_pass, hlength]

/-- The velocity of particle `j` along an axis, from the particle after the pass. -/
theorem exists_velocity_step (h : (step o st).1 = .ok ()) {j : Nat} {p : Particle}
    (hp : (pass o st).2.swarm.particles[j]? = some p) :
    ∃ p', (step o st).2.swarm.particles[j]? = some p' ∧ ∀ a,
      let first := 4 * j + 2 * Axis.index a
      p'.velocity.along a =
        p.pull (pass o st).2.swarm.coefficients (pass o st).2.swarm.leader.point a
          (unitInterval (word first st.generator))
          (unitInterval (word (first + 1) st.generator)) := by
  rw [step_of_pass (pass_eq_ok_of_step h), accelerate_apply, advance, List.getElem?_map,
    List.getElem?_mapIdx, hp, generator_pass]
  refine ⟨_, rfl, fun a => ?_⟩
  have hwords (i : Nat) : word i (skip (4 * j) st.generator) = word (4 * j + i) st.generator :=
    word_skip _ _ _
  cases a <;> simp only [Particle.advance, Particle.accelerate_apply, hwords] <;> rfl

end Swarm

/-! ### Runs -/

namespace Optimizer

variable {σ : Type} {o : Objective σ} {st : Stage σ γ} {sampler : Sampler}

section Built

variable (hbuild : Sampler.build st.swarm.bounds st.swarm.sampling = .ok sampler)
include hbuild

/-- Every step draws four words for each particle, and nothing is drawn between the steps. -/
theorem generator_stageAfter {k : Nat}
    (hsteps : ∀ t < k, (Swarm.step o (stageAfter o 0 (Swarm.start o st).2 t)).1 = .ok ()) :
    (stageAfter o 0 (Swarm.start o st).2 k).generator =
      skip (st.swarm.sampling.words * st.swarm.populationSize.toNat +
        4 * st.swarm.populationSize.toNat * k) st.generator := by
  induction k with
  | zero => exact Swarm.generator_start_of_built hbuild o
  | succ k ih =>
    have hstep := hsteps k k.lt_succ_self
    rw [stageAfter, recordedStep_of_ok hstep]
    dsimp only
    rw [Swarm.generator_step_of_ok hstep, ih fun t ht => hsteps t (Nat.lt_succ_of_lt ht),
      length_particles_stageAfter, Swarm.length_particles_start_of_built hbuild, ← skip_add,
      Nat.mul_succ, Nat.add_assoc]

theorem exists_particle_pass (o : Objective σ) (k : Nat) {j : Nat}
    (hj : j < st.swarm.populationSize.toNat) :
    ∃ p, (Swarm.pass o (stageAfter o 0 (Swarm.start o st).2 k)).2.swarm.particles[j]? = some p := by
  have hlength : (Swarm.pass o (stageAfter o 0 (Swarm.start o st).2 k)).2.swarm.particles.length =
      st.swarm.populationSize.toNat :=
    calc
      _ = (stageAfter o 0 (Swarm.start o st).2 k).swarm.particles.length :=
        Swarm.leads_pass_sameCount o _
      _ = (Swarm.start o st).2.swarm.particles.length := length_particles_stageAfter o 0 _ k
      _ = st.swarm.populationSize.toNat := Swarm.length_particles_start_of_built hbuild o
  rw [← hlength] at hj
  exact ⟨_, List.getElem?_eq_getElem hj⟩

end Built

/-- **Random words are read on a schedule.**  A start draws the words of one point for each
    particle, also when its pass fails, or none when no sampler can be built; a step that succeeds
    draws four words for each particle and a step that fails none.  So each coordinate of a sampled
    position and each pair of factors of a velocity is read at a place that depends on the way of
    sampling, the size of the swarm, the step, the particle and the axis only. -/
theorem runs_draw_on_schedule (o : Objective σ) (st : Stage σ γ) :
    let way := st.swarm.sampling
    let size := st.swarm.populationSize.toNat
    let started := Swarm.start o st
    (∀ n (g : Generator), (skip n g).drawn = g.drawn + n) ∧
    (∀ e, Sampler.build st.swarm.bounds way = .error e → started.2.generator = st.generator) ∧
    (∀ st' : Stage σ γ,
      ((Swarm.step o st').1 = .ok () →
        (Swarm.step o st').2.generator = skip (4 * st'.swarm.particles.length) st'.generator) ∧
      ∀ e, (Swarm.step o st').1 = .error e → (Swarm.step o st').2.generator = st'.generator) ∧
    ∀ sampler, Sampler.build st.swarm.bounds way = .ok sampler →
      started.2.generator = skip (way.words * size) st.generator ∧
      (∀ j < size, ∃ p, (Swarm.scatter st).2.swarm.particles[j]? = some p ∧ ∀ a,
        let first := way.words * j + way.wordsPerAxis * Axis.index a
        p.position.along a =
          sampler.coordinate (word first st.generator) (word (first + 1) st.generator) a) ∧
      ∀ k, (∀ t ≤ k, (Swarm.step o (stageAfter o 0 started.2 t)).1 = .ok ()) →
        let passed := (Swarm.pass o (stageAfter o 0 started.2 k)).2.swarm
        let stepped := (Swarm.step o (stageAfter o 0 started.2 k)).2.swarm
        ∀ j < size, ∃ p p', passed.particles[j]? = some p ∧ stepped.particles[j]? = some p' ∧ ∀ a,
          let first := way.words * size + 4 * size * k + (4 * j + 2 * Axis.index a)
          p'.velocity.along a =
            p.pull passed.coefficients passed.leader.point a
              (unitInterval (word first st.generator))
              (unitInterval (word (first + 1) st.generator)) := by
  intro way size started
  refine ⟨Generator.drawn_skip, fun e => Swarm.generator_start_of_not_built, ?_, ?_⟩
  · intro st'
    exact ⟨Swarm.generator_step_of_ok, fun e => Swarm.generator_step_of_error⟩
  · intro sampler hbuild
    refine ⟨Swarm.generator_start_of_built hbuild o,
      fun j => Swarm.exists_particle_of_built hbuild, ?_⟩
    intro k hsteps passed stepped j hj
    obtain ⟨p, hp⟩ := exists_particle_pass hbuild o k hj
    obtain ⟨p', hp', hvelocity⟩ := Swarm.exists_velocity_step (hsteps k le_rfl) hp
    refine ⟨p, p', hp, hp', fun a => ?_⟩
    have hgenerator := generator_stageAfter hbuild fun t ht => hsteps t (Nat.le_of_lt ht)
    have hfactors := hvelocity a
    dsimp only at hfactors
    rw [hgenerator, word_skip, word_skip] at hfactors
    exact hfactors

def patchy : Objective Nat := .limited 20 (fun _ _ => "no value") fun p => p.x.sqrt

def patchyWords : List UInt64 :=
  [0x4000000000000000, 0xe000000000000000, 0x8000000000000000, 0xf000000000000000, 0]

/-- With two particles that are sampled uniformly, the second step reads the velocity of the second
    particle along `y` from words `18` and `19`.  The third step fails and reads no word. -/
theorem patchy_draws_on_schedule :
    let c : Config := { populationSize := 2, bounds := .square (-4) 3, sampling := .uniform }
    let g := Generator.ofWords patchyWords
    let st := stage c ⟨0, #[]⟩ g
    let after := stageAfter patchy 0 (Swarm.start patchy st).2
    ((∃ sampler, Sampler.build c.bounds c.sampling = .ok sampler) ∧
      (∀ t ≤ 1, (Swarm.step patchy (after t)).1 = .ok ()) ∧
      (Swarm.step patchy (after 2)).1 = .error (.objectiveFailed "no value")) ∧
    ((Swarm.start patchy st).2.generator = skip 4 g ∧ (skip 4 g).drawn = 4) ∧
    (Swarm.step patchy (after 2)).2.generator = (after 2).generator ∧
    ∃ p p', (Swarm.pass patchy (after 1)).2.swarm.particles[1]? = some p ∧
      (Swarm.step patchy (after 1)).2.swarm.particles[1]? = some p' ∧
      p'.velocity.along .y =
        p.pull (Swarm.pass patchy (after 1)).2.swarm.coefficients
          (Swarm.pass patchy (after 1)).2.swarm.leader.point .y
          (unitInterval (word 18 g)) (unitInterval (word 19 g)) := by
  intro c g st after
  have hsteps : ∀ t ≤ 1, (Swarm.step patchy (after t)).1 = .ok () := by
    intro t ht
    apply Attempt.eq_ok_of_toOption
    revert t
    decide +kernel
  have hfails : (Swarm.step patchy (after 2)).1 = .error (.objectiveFailed "no value") := by
    decide +kernel
  obtain ⟨sampler, hbuild⟩ : ∃ sampler, Sampler.build c.bounds c.sampling = .ok sampler :=
    Attempt.exists_eq_ok_of_isSome (by decide +kernel)
  have hafter : stageAfter patchy 0 (Swarm.start patchy st).2 = after := rfl
  have hwords : st.swarm.sampling.words = 2 := rfl
  have hsize : st.swarm.populationSize.toNat = 2 := rfl
  have hgenerator : st.generator = g := rfl
  obtain ⟨hdrawn, -, hstep, hbuilt⟩ := runs_draw_on_schedule patchy st
  obtain ⟨hstart, -, hvelocity⟩ := hbuilt sampler hbuild
  rw [hafter] at hvelocity
  obtain ⟨p, p', hp, hp', hpull⟩ := hvelocity 1 hsteps 1 (by decide)
  have hy := hpull .y
  simp only [hwords, hsize, hgenerator, Axis.index, Nat.reduceMul, Nat.reduceAdd] at hstart hy
  exact ⟨⟨⟨sampler, hbuild⟩, hsteps, hfails⟩, ⟨hstart, hdrawn 4 g⟩, (hstep _).2 _ hfails,
    p, p', hp, hp', hy⟩

end Optimizer

end ParticleSwarm
