import ParticleSwarm.Generator
import ParticleSwarm.Proofs.Swarm.Questions

/-!
# What a start forgets

A start depends on the setup of a swarm and on nothing else in it, and no operation changes the
setup.  So a start makes the same of any swarm as of a new one with the same configuration, whatever
was done to it before, with whichever objectives and generators, and whether that succeeded or not.
-/

namespace ParticleSwarm

open Attempt

/-! ### Starts of swarms with the same setup -/

namespace Swarm

theorem cleared_eq_of_setup {s s' : Swarm} (h : s.setup = s'.setup) : s.cleared = s'.cleared := by
  injection h with hbounds h
  injection h with hcoefficients h
  injection h with hsize hsampling
  simp only [cleared, hbounds, hcoefficients, hsize, hsampling]

theorem build_eq_of_setup {s s' : Swarm} (h : s.setup = s'.setup) :
    Sampler.build s.bounds s.sampling = Sampler.build s'.bounds s'.sampling :=
  congrArg (fun setup => Sampler.build setup.1 setup.2.2.2) h

variable {σ γ : Type} [WordSource γ]

/-- Scattering looks at nothing but the setup of a swarm. -/
theorem scatter_eq_of_setup {s s' : Swarm} (h : s.setup = s'.setup) (session : Session σ)
    (g : γ) : scatter ⟨s, session, g⟩ = scatter ⟨s', session, g⟩ := by
  rw [scatter_apply, scatter_apply]
  dsimp only
  rw [build_eq_of_setup h, cleared_eq_of_setup h]

/-- A start looks at nothing but the setup of a swarm, whether it succeeds or fails. -/
theorem start_eq_of_setup {s s' : Swarm} (h : s.setup = s'.setup) (o : Objective σ)
    (session : Session σ) (g : γ) : start o ⟨s, session, g⟩ = start o ⟨s', session, g⟩ := by
  have hscatter := scatter_eq_of_setup h session g
  rcases hok : (scatter ⟨s, session, g⟩).1 with e | ⟨⟨⟩⟩
  · rw [start, bind_of_error hok, bind_of_error (hscatter ▸ hok), hscatter]
  · rw [start, bind_of_ok hok, bind_of_ok (hscatter ▸ hok), hscatter]

theorem particles_start_of_not_built {st : Stage σ γ} {e : SearchError}
    (hbuild : Sampler.build st.swarm.bounds st.swarm.sampling = .error e) (o : Objective σ) :
    (start o st).2.swarm.particles = [] := by
  have hscatter : scatter st = (.error e, { st with swarm := st.swarm.cleared }) := by
    rw [scatter_apply, hbuild]
  rw [start, bind_of_error (congrArg Prod.fst hscatter), hscatter]
  rfl

end Swarm

/-! ### Deeds -/

/-- An operation with all that it is carried out with, except for the swarm.  Two deeds need not
    have their objective or their generator in common. -/
structure Deed where
  {σ γ : Type}
  [source : WordSource γ]
  operation : Operation
  objective : Objective σ
  session : Session σ
  generator : γ

namespace Deed

attribute [instance] source

def carryOut (d : Deed) (s : Swarm) : Swarm :=
  (d.operation.perform d.objective ⟨s, d.session, d.generator⟩).2.swarm

theorem setup_carryOut (d : Deed) (s : Swarm) : (d.carryOut s).setup = s.setup :=
  d.operation.leads_perform_sameSetup d.objective ⟨s, d.session, d.generator⟩

theorem carryOut_of_start {d : Deed} (hd : d.operation = .start) (s : Swarm) :
    d.carryOut s = (Swarm.start d.objective ⟨s, d.session, d.generator⟩).2.swarm := by
  rw [carryOut, hd, Operation.perform, bind_pure_apply]

theorem length_particles_carryOut {d : Deed} (hd : d.operation ≠ .start) (s : Swarm) :
    (d.carryOut s).particles.length = s.particles.length :=
  Operation.leads_perform_sameCount d.objective hd ⟨s, d.session, d.generator⟩

end Deed

namespace Swarm

def undergo (s : Swarm) : List Deed → Swarm
  | [] => s
  | d :: deeds => (d.carryOut s).undergo deeds

theorem setup_undergo (s : Swarm) (deeds : List Deed) : (s.undergo deeds).setup = s.setup := by
  induction deeds generalizing s with
  | nil => rfl
  | cons d deeds ih => exact (ih _).trans (d.setup_carryOut s)

/-- The last start among some deeds decides how many particles there are. -/
theorem length_particles_undergo {s : Swarm} {sampler : Sampler}
    (hbuild : Sampler.build s.bounds s.sampling = .ok sampler) (deeds : List Deed) :
    (s.undergo deeds).particles.length =
      if .start ∈ deeds.map Deed.operation then s.populationSize.toNat
      else s.particles.length := by
  induction deeds generalizing s with
  | nil => rfl
  | cons d deeds ih =>
    have hsetup := d.setup_carryOut s
    have hsize : (d.carryOut s).populationSize = s.populationSize := congrArg (·.2.2.1) hsetup
    rw [undergo, ih ((build_eq_of_setup hsetup).trans hbuild), hsize, List.map_cons]
    by_cases hd : d.operation = .start
    · have hlength : (d.carryOut s).particles.length = s.populationSize.toNat := by
        rw [Deed.carryOut_of_start hd, length_particles_start_of_built hbuild]
      simp [hd, hlength]
    · simp [Ne.symm hd, Deed.length_particles_carryOut hd]

/-- Where no sampler can be built, no deed brings particles into being. -/
theorem particles_undergo_of_not_built {s : Swarm} {e : SearchError}
    (hbuild : Sampler.build s.bounds s.sampling = .error e) (hnone : s.particles = [])
    (deeds : List Deed) : (s.undergo deeds).particles = [] := by
  induction deeds generalizing s with
  | nil => exact hnone
  | cons d deeds ih =>
    refine ih ((build_eq_of_setup (d.setup_carryOut s)).trans hbuild) ?_
    by_cases hd : d.operation = .start
    · rw [Deed.carryOut_of_start hd, particles_start_of_not_built hbuild]
    · rw [← List.length_eq_zero_iff, Deed.length_particles_carryOut hd, hnone, List.length_nil]

/-- **A start forgets what was done before it.**  After any deeds on the new swarm of a
    configuration, a start has the outcome that it has on the new swarm itself, and leaves the same
    swarm, the same session and the same generator.  The setup is still that of the configuration.
    There are as many particles as it says if its sampler can be built and one of the deeds was a
    start, which may have failed after that, and none otherwise. -/
theorem start_forgets (c : Config) (deeds : List Deed) :
    let s := (ofConfig c).undergo deeds
    (∀ {σ γ : Type} [WordSource γ] (o : Objective σ) (session : Session σ) (g : γ),
      start o ⟨s, session, g⟩ = start o ⟨ofConfig c, session, g⟩) ∧
    s.setup = (c.bounds, c.coefficients, c.populationSize, c.sampling) ∧
    (∀ sampler, Sampler.build c.bounds c.sampling = .ok sampler →
      s.particles.length =
        if .start ∈ deeds.map Deed.operation then c.populationSize.toNat else 0) ∧
    ∀ e, Sampler.build c.bounds c.sampling = .error e → s.particles = [] := by
  intro s
  have hsetup : s.setup = (ofConfig c).setup := setup_undergo _ deeds
  refine ⟨fun o => start_eq_of_setup hsetup o, hsetup, ?_, ?_⟩
  · intro sampler hbuild
    exact length_particles_undergo (s := ofConfig c) hbuild deeds
  · intro e hbuild
    exact particles_undergo_of_not_built (s := ofConfig c) hbuild rfl deeds

/-- A start that fails when it asks for its first value, a scan without one, and new velocities. -/
def wear : List Deed :=
  [⟨.start, .ofFunction fun _ => .error "no value", ⟨(), #[]⟩, Generator.ofWords [0, 5]⟩,
    ⟨.refresh, .ofFunction fun p => .ok p.x, ⟨(), #[]⟩, Generator.ofWords []⟩,
    ⟨.accelerate, .ofFunction fun p => .ok p.y, ⟨(), #[]⟩,
      Generator.ofWords [7, 0x8000000000000000]⟩]

/-- The particles are there although their start failed.  They have got a leader and velocities
    since, but the next start does not see it. -/
theorem start_forgets_wear :
    let c : Config := { populationSize := 2, bounds := .square (-1) 3, sampling := .uniform }
    let s := (ofConfig c).undergo wear
    let o : Objective Unit := .ofFunction fun p => .ok p.x
    let g := Generator.ofWords [0x8000000000000000, 5]
    (∃ sampler, Sampler.build c.bounds c.sampling = .ok sampler) ∧
    (s.leader ≠ (ofConfig c).leader ∧ s.particles.length = 2) ∧
    start o ⟨s, ⟨(), #[]⟩, g⟩ = start o ⟨ofConfig c, ⟨(), #[]⟩, g⟩ := by
  intro c s o g
  obtain ⟨sampler, hbuild⟩ : ∃ sampler, Sampler.build c.bounds c.sampling = .ok sampler :=
    Attempt.exists_eq_ok_of_isSome (by decide +kernel)
  have hstarted : Operation.start ∈ wear.map Deed.operation := by decide
  obtain ⟨hstart, -, hlength, -⟩ := start_forgets c wear
  have htwo := hlength sampler hbuild
  rw [if_pos hstarted] at htwo
  exact ⟨⟨sampler, hbuild⟩, ⟨by decide +kernel, htwo⟩, hstart o _ g⟩

end Swarm

end ParticleSwarm
