import ParticleSwarm.Proofs.Run.Containment
import ParticleSwarm.Proofs.Run.FirstBest

/-!
# What a start comes to

Drawn positions need not lie within bounds: splitting from zero draws on both sides of zero, whatever
the domain, and uniform numbers are rounded.  The pass of a start repairs this before it evaluates
anything.  When it succeeds, all particles are at rest within bounds, each remembers the better one
of the origin and its position, and the leader is the first of the best positions, unless the origin
is at least as good.
-/

namespace ParticleSwarm

open Fitness

theorem Bounds.damp_origin (b : Bounds) : b.damp .origin = .origin := by
  apply Point.ext_along
  intro a
  have hzero : Point.origin.along a = 0 := by cases a <;> rfl
  simp [damp, dampAlong, hzero]

/-- A particle that has been drawn at a number and has gone through its first pass. -/
structure Particle.Started (b : Bounds) (f : Point → Float) (p : Particle) : Prop where
  contained : b.contains p.position = true
  velocity : p.velocity = .origin
  personalBest : p.personalBest =
    if rank (f p.position) < rank (f .origin) then p.position else .origin

theorem Particle.started_passed {b : Bounds} (hb : b.Good) (f : Point → Float) {x : Point}
    (hx : x.IsNumber) : ((Particle.atRest x).passed b f).Started b f where
  contained := by
    simp only [passed, reviewed, position_remember]
    exact hb.contains_clamp_iff.mpr hx
  velocity := by
    simp only [passed, reviewed, velocity_remember]
    exact b.damp_origin
  personalBest := by
    simp only [passed, reviewed, position_remember]
    exact personalBest_remember _ _ _

namespace Swarm

variable {σ γ : Type} [WordSource γ] {o : Objective σ} {f : Point → Float} {st : Stage σ γ}

theorem swarm_start_of_ok (hf : o.Follows f) (hok : (start o st).1 = .ok ()) :
    (start o st).2.swarm = (scatter st).2.swarm.passed f := by
  obtain ⟨-, hpass⟩ := start_eq_pass hok
  rw [hpass] at hok ⊢
  exact swarm_pass_of_ok hf hok

/-- The positions after a start are those that its pass has evaluated. -/
theorem positions_start_of_ok (hf : o.Follows f) (hok : (start o st).1 = .ok ()) :
    (start o st).2.swarm.particles.map Particle.position = (scatter st).2.swarm.visits := by
  rw [swarm_start_of_ok hf hok]
  simp [passed, visits, confine, Particle.passed, Particle.reviewed, Function.comp_def]

/-- New particles are at rest, and a start makes one pass over them. -/
theorem started_start (hf : o.Follows f) (hb : st.swarm.bounds.Good)
    (hok : (start o st).1 = .ok ()) :
    ∀ p ∈ (start o st).2.swarm.particles, p.Started st.swarm.bounds f := by
  have hbounds : (scatter st).2.swarm.bounds = st.swarm.bounds :=
    Stage.SameSetup.bounds (leads_scatter_sameSetup st)
  intro p hp
  rw [swarm_start_of_ok hf hok, passed, hbounds] at hp
  obtain ⟨q, hq, rfl⟩ := List.mem_map.mp hp
  rw [(fresh_scatter st).particles q hq]
  exact Particle.started_passed hb f ((healthy_scatter st hb).particles q hq).position

/-- **What a start comes to.**  On a configuration that is accepted, with an objective that follows
    `f`, a start that succeeds leaves as many particles as the configuration says.  All are at rest
    within bounds, and each remembers its position if that ranks strictly before the origin, and the
    origin otherwise.  The leader is at the first position of least rank if that ranks strictly
    before the origin, and at the origin otherwise. -/
theorem start_postcondition {c : Config} (hvalid : c.validate = .ok ())
    (hsetup : st.swarm.setup = (ofConfig c).setup) (hf : o.Follows f)
    (hok : (start o st).1 = .ok ()) :
    let s := (start o st).2.swarm
    s.particles.length = c.populationSize.toNat ∧
    (∀ p ∈ s.particles, p.Started c.bounds f) ∧
    ∃ q, firstBest? f (s.particles.map Particle.position) = some q ∧
      s.leader.point = (if rank (f q) < rank (f .origin) then q else .origin) ∧
      s.leader.fitness = rank (f s.leader.point) := by
  intro s
  obtain ⟨hsize, -, hgood⟩ := Config.validate_eq_ok_iff.mp hvalid
  have hbounds : st.swarm.bounds = c.bounds := congrArg Prod.fst hsetup
  have hpopulation : st.swarm.populationSize = c.populationSize := congrArg (·.2.2.1) hsetup
  have hcount : s.particles.length = c.populationSize.toNat := by
    have hscattered := length_particles_scatter (start_eq_pass hok).1
    rw [hpopulation] at hscattered
    simp [s, swarm_start_of_ok hf hok, passed, hscattered]
  refine ⟨hcount, ?_, ?_⟩
  · rw [← hbounds] at hgood ⊢
    exact started_start hf hgood hok
  · have hleader : s.leader = .ofPoint f ((scatter st).2.swarm.visits.foldl (prefer f) .origin) := by
      rw [← hpopulation] at hsize
      exact (Optimizer.leader_start hf hsize hok).1
    rw [← positions_start_of_ok hf hok] at hleader
    -- there is a first particle, so preferring through the positions has somewhere to begin
    obtain ⟨p, ps, hps⟩ : ∃ p ps, s.particles = p :: ps := by
      cases hparticles : s.particles with
      | nil =>
        rw [hparticles] at hcount
        exact absurd (UInt64.toNat_inj.mp hcount.symm) hsize
      | cons p ps => exact ⟨p, ps, rfl⟩
    change s.leader = .ofPoint f ((s.particles.map Particle.position).foldl (prefer f) .origin)
      at hleader
    rw [hps, List.map_cons, foldl_prefer_cons] at hleader
    rw [hps, List.map_cons, hleader]
    exact ⟨_, firstBest?_cons _ _, rfl, rfl⟩

def rootFrom (p : Point) : Float := (p.x - 3).sqrt

/-- A segment that the origin is not on.  Both particles are drawn beside it.  The second one is
    brought to its left end, where there is no number, and remembers the origin although there is none
    either. -/
theorem rootFrom_start :
    let half : UInt64 := 0x8000000000000000
    let o : Objective Unit := .ofFunction fun p => .ok (rootFrom p)
    let c : Config := { populationSize := 2, bounds := .rectangle 2 8 3 3 }
    let st := Optimizer.stage c ⟨(), #[]⟩
      (Generator.ofWords [half, 0, half, 0, half, half, half, half])
    let s := (start o st).2.swarm
    (c.validate = .ok () ∧ st.swarm.setup = (ofConfig c).setup ∧ o.Follows rootFrom ∧
      (start o st).1 = .ok ()) ∧
    (scatter st).2.swarm.particles.map Particle.position = [⟨4, 1.5⟩, ⟨1, 1.5⟩] ∧
    s.particles = [⟨⟨4, 3⟩, .origin, ⟨4, 3⟩⟩, ⟨⟨2, 3⟩, .origin, .origin⟩] ∧
    s.leader = ⟨⟨4, 3⟩, 1⟩ ∧
    s.particles.length = 2 ∧ (∀ p ∈ s.particles, p.Started c.bounds rootFrom) ∧
    ∃ q, firstBest? rootFrom (s.particles.map Particle.position) = some q ∧
      s.leader.point = if rank (rootFrom q) < rank (rootFrom .origin) then q else .origin := by
  intro half o c st s
  have hvalid : c.validate = .ok () := Attempt.eq_ok_of_toOption (by decide +kernel)
  have hf : o.Follows rootFrom := fun _ _ _ h => (Except.ok.inj h).symm
  have hok : (start o st).1 = .ok () := Attempt.eq_ok_of_toOption (by decide +kernel)
  obtain ⟨hlength, hstarted, q, hq, hleader, -⟩ := start_postcondition hvalid rfl hf hok
  exact ⟨⟨hvalid, rfl, hf, hok⟩, by decide +kernel, by decide +kernel, by decide +kernel, hlength,
    hstarted, q, hq, hleader⟩

end Swarm

end ParticleSwarm
