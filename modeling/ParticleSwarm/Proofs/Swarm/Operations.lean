import ParticleSwarm.Proofs.Swarm.Review
import ParticleSwarm.Swarm.Protocol

/-!
# What the operations leave alone

Only reviews change remembered points, only scans and clearing change the leader, and nothing
changes the setup of a swarm.  The rules at the end put a fact on an operation together from facts
on the parts of a step, for steps that stop half way as well as for those that succeed.
-/

namespace ParticleSwarm

/-! ### Drawing velocities -/

section Accelerate

variable {γ : Type} [WordSource γ]

/-- Each particle draws four words, so that the particle with index `j` starts behind `4 * j`
    words. -/
theorem Particle.mapM_accelerate (c : Coefficients) (globalBest : Point) (ps : List Particle)
    (g : γ) :
    ps.mapM (Particle.accelerate c globalBest) g =
      (ps.mapIdx fun j p => (p.accelerate c globalBest (WordSource.skip (4 * j) g)).1,
        WordSource.skip (4 * ps.length) g) := by
  induction ps generalizing g with
  | nil => rfl
  | cons p ps ih =>
    rw [List.mapM_cons, List.mapIdx_cons, List.length_cons]
    have hskip (n : Nat) : WordSource.skip (4 * (n + 1)) g =
        WordSource.skip (4 * n) (WordSource.skip 4 g) := by
      rw [← WordSource.skip_add]
      congr 1
      omega
    have htail := ih (WordSource.skip 4 g)
    simp only [hskip]
    change (let rest := ps.mapM (Particle.accelerate c globalBest) (WordSource.skip 4 g)
      ((p.accelerate c globalBest g).1 :: rest.1, rest.2)) = _
    rw [htail]
    rfl

theorem Swarm.accelerate_apply (s : Swarm) (g : γ) :
    s.accelerate g =
      ({ s with particles := s.particles.mapIdx fun j p =>
          (p.accelerate s.coefficients s.leader.point (WordSource.skip (4 * j) g)).1 },
        WordSource.skip (4 * s.particles.length) g) := by
  change (let drawn := s.particles.mapM (Particle.accelerate s.coefficients s.leader.point) g
    ({ s with particles := drawn.1 }, drawn.2)) = _
  rw [Particle.mapM_accelerate]

end Accelerate

/-! ### The remembered points and the setup -/

namespace Swarm

def bests (s : Swarm) : List Point := s.particles.map Particle.personalBest

def setup (s : Swarm) : Bounds × Coefficients × UInt64 × Sampling :=
  (s.bounds, s.coefficients, s.populationSize, s.sampling)

theorem bests_eq_nil_iff {s : Swarm} : s.bests = [] ↔ s.particles = [] := List.map_eq_nil_iff

@[simp] theorem bests_confine (s : Swarm) : s.confine.bests = s.bests := by
  simp [bests, confine, Particle.confine, Function.comp_def]

@[simp] theorem bests_advance (s : Swarm) : s.advance.bests = s.bests := by
  simp [bests, advance, Particle.advance, Function.comp_def]

@[simp] theorem leader_confine (s : Swarm) : s.confine.leader = s.leader := rfl

@[simp] theorem leader_advance (s : Swarm) : s.advance.leader = s.leader := rfl

section Accelerate

variable {γ : Type} [WordSource γ]

@[simp] theorem leader_accelerate (s : Swarm) (g : γ) : (s.accelerate g).1.leader = s.leader := rfl

@[simp] theorem bests_accelerate (s : Swarm) (g : γ) : (s.accelerate g).1.bests = s.bests := by
  rw [accelerate_apply]
  refine List.ext_getElem (by simp [bests]) fun i _ _ => ?_
  simp [bests, Particle.accelerate_apply]

end Accelerate

end Swarm

/-! ### Scattering -/

section Scatter

variable {σ γ : Type} [WordSource γ]

theorem Sampler.length_drawMany (sampler : Sampler) (n : Nat) (g : γ) :
    (sampler.drawMany n g).1.length = n := by
  induction n generalizing g with
  | zero => rfl
  | succ n ih => exact congrArg (· + 1) (ih (sampler.draw g).2)

namespace Swarm

/-- A swarm without a past: it has no leader yet, and all its particles are at rest. -/
structure Fresh (s : Swarm) : Prop where
  leader : s.leader = .none
  particles : ∀ p ∈ s.particles, p = .atRest p.position

theorem Fresh.eq_origin_of_mem_bests {s : Swarm} (h : s.Fresh) {b : Point} (hb : b ∈ s.bests) :
    b = .origin := by
  obtain ⟨p, hp, rfl⟩ := List.mem_map.mp hb
  rw [h.particles p hp]
  rfl

theorem scatter_apply (st : Stage σ γ) :
    scatter st =
      match Sampler.build st.swarm.bounds st.swarm.sampling with
      | .error e => (.error e, { st with swarm := st.swarm.cleared })
      | .ok sampler => Course.draw (populate sampler) { st with swarm := st.swarm.cleared } := by
  rw [scatter, Attempt.bind_of_ok rfl, Attempt.bind_of_ok rfl]
  refine (Attempt.liftExcept_bind _).trans ?_
  rw [Course.change_apply, Attempt.get_apply]
  dsimp only [cleared]
  cases Sampler.build st.swarm.bounds st.swarm.sampling <;> rfl

/-- Scattering leaves a fresh swarm, also when it fails. -/
theorem fresh_scatter (st : Stage σ γ) : (scatter st).2.swarm.Fresh := by
  rw [scatter_apply]
  cases Sampler.build st.swarm.bounds st.swarm.sampling with
  | error e => exact ⟨rfl, fun p hp => by cases hp⟩
  | ok sampler =>
    refine ⟨rfl, fun p hp => ?_⟩
    obtain ⟨x, -, rfl⟩ := List.mem_map.mp hp
    rfl

theorem length_particles_scatter {st : Stage σ γ} (h : (scatter st).1 = .ok ()) :
    (scatter st).2.swarm.particles.length = st.swarm.populationSize.toNat := by
  rw [scatter_apply] at h ⊢
  cases hbuild : Sampler.build st.swarm.bounds st.swarm.sampling with
  | error e =>
    rw [hbuild] at h
    cases h
  | ok sampler => exact (List.length_map ..).trans (sampler.length_drawMany _ _)

end Swarm

end Scatter

/-! ### Operations that succeed -/

namespace Swarm

variable {σ γ : Type} {o : Objective σ} {st : Stage σ γ}

/-- Confining cannot fail. -/
theorem pass_eq_bind (o : Objective σ) (st : Stage σ γ) :
    pass o st = (evaluate o >>= fun _ => refresh o >>= fun _ => pure ())
      { st with swarm := st.swarm.confine } := Attempt.bind_of_ok rfl

theorem pass_of_evaluate_error {e : SearchError}
    (h : (evaluate o { st with swarm := st.swarm.confine }).1 = .error e) :
    pass o st = (.error e, (evaluate o { st with swarm := st.swarm.confine }).2) := by
  rw [pass_eq_bind, Attempt.bind_of_error h]

theorem pass_of_evaluate_ok (h : (evaluate o { st with swarm := st.swarm.confine }).1 = .ok ()) :
    pass o st =
      let scanned := refresh o (evaluate o { st with swarm := st.swarm.confine }).2
      (scanned.1.map fun _ => (), scanned.2) := by
  rw [pass_eq_bind, Attempt.bind_of_ok h, Attempt.bind_pure_apply]

/-- After a pass the particles are those after the reviews, also when it fails. -/
theorem particles_pass (o : Objective σ) (st : Stage σ γ) :
    (pass o st).2.swarm.particles =
      (evaluate o { st with swarm := st.swarm.confine }).2.swarm.particles := by
  rcases hok : (evaluate o { st with swarm := st.swarm.confine }).1 with e | ⟨⟨⟩⟩
  · rw [pass_of_evaluate_error hok]
  · rw [pass_of_evaluate_ok hok]
    rfl

/-- The stages within a pass that succeeds. -/
theorem exists_of_pass_eq_ok (h : (pass o st).1 = .ok ()) :
    ∃ st₁ changed, evaluate o { st with swarm := st.swarm.confine } = (.ok (), st₁) ∧
      refresh o st₁ = (.ok changed, (pass o st).2) := by
  rw [pass_eq_bind] at h
  obtain ⟨⟨⟩, hevaluate, h⟩ := Attempt.bind_fst_eq_ok.mp h
  obtain ⟨changed, hrefresh, -⟩ := Attempt.bind_fst_eq_ok.mp h
  rw [pass_of_evaluate_ok hevaluate]
  exact ⟨_, changed, Prod.ext hevaluate rfl, Prod.ext hrefresh rfl⟩

/-- A pass fails in the reviews, or in the scan behind them. -/
theorem evaluate_or_refresh_of_pass_eq_error {e : SearchError} (h : (pass o st).1 = .error e) :
    evaluate o { st with swarm := st.swarm.confine } = (.error e, (pass o st).2) ∨
      ∃ st₁, evaluate o { st with swarm := st.swarm.confine } = (.ok (), st₁) ∧
        refresh o st₁ = (.error e, (pass o st).2) := by
  rw [pass_eq_bind] at h
  rcases Attempt.bind_fst_eq_error.mp h with hevaluate | ⟨⟨⟩, hevaluate, h⟩
  · rw [pass_of_evaluate_error hevaluate]
    exact Or.inl (Prod.ext hevaluate rfl)
  · rw [pass_of_evaluate_ok hevaluate]
    rcases Attempt.bind_fst_eq_error.mp h with hrefresh | ⟨_, -, hpure⟩
    · exact Or.inr ⟨_, Prod.ext hevaluate rfl, Prod.ext hrefresh rfl⟩
    · cases hpure

theorem forall_particles_evaluate {motive : Particle → Prop}
    (h : ∀ p ∈ st.swarm.particles, motive p)
    (hremember : ∀ p, motive p → o.GivesFinite p.position →
      motive { p with personalBest := p.position }) :
    ∀ p ∈ (evaluate o st).2.swarm.particles, motive p := by
  intro p' hp'
  have hreviewed := Particle.forall₂_reviewAll o st.swarm.particles st.session
  obtain ⟨p, hp, hchange⟩ := exists_mem_of_forall₂ hreviewed hp'
  rcases hchange with rfl | ⟨rfl, hfinite⟩
  · exact h _ hp
  · exact hremember p (h p hp) hfinite

theorem leader_refresh {motive : Point → Prop} (hleader : motive st.swarm.leader.point)
    (h : ∀ p ∈ st.swarm.particles, motive p.personalBest) :
    motive (refresh o st).2.swarm.leader.point := by
  refine Leader.scan_induction (motive := fun l => motive l.point) o hleader ?_ false st.session
  intro l p v m hl hp _
  rw [Leader.point_challenge]
  split
  case isTrue => exact h p hp
  case isFalse => exact hl

/-- What confining brings about, and reviews and scans keep, holds after a pass, also after one that
    fails. -/
theorem pass_invariant (inv : Stage σ γ → Prop)
    (hconfine : inv { st with swarm := st.swarm.confine })
    (hevaluate : ∀ st, inv st → inv (evaluate o st).2)
    (hrefresh : ∀ st, inv st → inv (refresh o st).2) : inv (pass o st).2 := by
  have hevaluated := hevaluate _ hconfine
  rcases hok : (evaluate o { st with swarm := st.swarm.confine }).1 with e | ⟨⟨⟩⟩
  · rw [pass_of_evaluate_error hok]
    exact hevaluated
  · rw [pass_of_evaluate_ok hok]
    exact hrefresh _ hevaluated

variable [WordSource γ]

theorem start_eq_pass (h : (start o st).1 = .ok ()) :
    (scatter st).1 = .ok () ∧ start o st = pass o (scatter st).2 := by
  obtain ⟨⟨⟩, hscatter, -⟩ := Attempt.bind_fst_eq_ok.mp h
  exact ⟨hscatter, Attempt.bind_of_ok hscatter⟩

/-- After a pass that succeeds, the rest of a step cannot fail. -/
theorem step_of_pass (h : (pass o st).1 = .ok ()) :
    step o st =
      (.ok (), { (pass o st).2 with
        swarm := ((pass o st).2.swarm.accelerate (pass o st).2.generator).1.advance
        generator := ((pass o st).2.swarm.accelerate (pass o st).2.generator).2 }) :=
  Attempt.bind_of_ok h

/-- A step fails only in its pass. -/
theorem step_eq_pass_of_not_ok (h : (step o st).1 ≠ .ok ()) : step o st = pass o st := by
  rcases hpass : (pass o st).1 with e | ⟨⟨⟩⟩
  · rw [step, Attempt.bind_of_error hpass]
    exact Prod.ext hpass.symm rfl
  · rw [step_of_pass hpass] at h
    exact absurd rfl h

theorem pass_eq_ok_of_step (h : (step o st).1 = .ok ()) : (pass o st).1 = .ok () := by
  obtain ⟨⟨⟩, hpass, -⟩ := Attempt.bind_fst_eq_ok.mp h
  exact hpass

end Swarm

/-! ### Rules for longer operations -/

section Rules

variable {σ γ : Type} {r : Stage σ γ → Stage σ γ → Prop} {o : Objective σ}
  (refl : ∀ st, r st st) (trans : ∀ {a b c}, r a b → r b c → r a c)
  (hconfine : Attempt.Leads r (Course.change Swarm.confine))
  (hevaluate : Attempt.Leads r (Swarm.evaluate o)) (hrefresh : Attempt.Leads r (Swarm.refresh o))

include refl trans

section Pass

include hconfine hevaluate hrefresh

theorem Swarm.leads_pass : Attempt.Leads r (pass o) :=
  .bind trans hconfine fun _ => .bind trans hevaluate fun _ =>
    .bind trans hrefresh fun _ => .pure refl ()

end Pass

variable [WordSource γ]

include hconfine hevaluate hrefresh

theorem Swarm.leads_start (hscatter : Attempt.Leads r (scatter : Course σ γ Unit)) :
    Attempt.Leads r (start o : Course σ γ Unit) :=
  .bind trans hscatter fun _ => leads_pass refl trans hconfine hevaluate hrefresh

variable (haccelerate : Attempt.Leads r (Course.draw Swarm.accelerate))
  (hadvance : Attempt.Leads r (Course.change Swarm.advance))
include haccelerate hadvance

theorem Swarm.leads_step : Attempt.Leads r (step o) :=
  .bind trans (leads_pass refl trans hconfine hevaluate hrefresh) fun _ =>
    .bind trans haccelerate fun _ => hadvance

/-- What each part of an operation leads along, the operation leads along.  Only starting
    scatters. -/
theorem Operation.leads_perform (op : Operation)
    (hscatter : op = .start → Attempt.Leads r (Swarm.scatter : Course σ γ Unit)) :
    Attempt.Leads r (op.perform o) := by
  cases op with
  | start =>
    exact .bind trans (Swarm.leads_start refl trans hconfine hevaluate hrefresh (hscatter rfl))
      fun _ => .pure refl _
  | step =>
    exact .bind trans
      (Swarm.leads_step refl trans hconfine hevaluate hrefresh haccelerate hadvance)
      fun _ => .pure refl _
  | confine => exact .bind trans hconfine fun _ => .pure refl _
  | evaluate => exact .bind trans hevaluate fun _ => .pure refl _
  | refresh => exact .bind trans hrefresh fun _ => .pure refl _
  | accelerate => exact .bind trans haccelerate fun _ => .pure refl _
  | advance => exact .bind trans hadvance fun _ => .pure refl _

end Rules

/-! ### The setup stays -/

section Setup

variable {σ γ : Type}

def Stage.SameSetup (st st' : Stage σ γ) : Prop := st'.swarm.setup = st.swarm.setup

theorem Stage.SameSetup.refl (st : Stage σ γ) : st.SameSetup st := rfl

theorem Stage.SameSetup.trans {a b c : Stage σ γ} (hab : a.SameSetup b) (hbc : b.SameSetup c) :
    a.SameSetup c := Eq.trans hbc hab

theorem Stage.SameSetup.bounds {st st' : Stage σ γ} (h : st.SameSetup st') :
    st'.swarm.bounds = st.swarm.bounds := congrArg Prod.fst h

theorem Swarm.leads_pass_sameSetup (o : Objective σ) :
    Attempt.Leads Stage.SameSetup (pass o : Course σ γ Unit) :=
  leads_pass Stage.SameSetup.refl Stage.SameSetup.trans (fun _ => rfl) (fun _ => rfl) fun _ => rfl

variable [WordSource γ]

theorem Swarm.leads_scatter_sameSetup :
    Attempt.Leads Stage.SameSetup (scatter : Course σ γ Unit) := by
  intro st
  rw [scatter_apply]
  cases Sampler.build st.swarm.bounds st.swarm.sampling <;> rfl

theorem Swarm.leads_start_sameSetup (o : Objective σ) :
    Attempt.Leads Stage.SameSetup (start o : Course σ γ Unit) :=
  .bind Stage.SameSetup.trans leads_scatter_sameSetup fun _ => leads_pass_sameSetup o

/-- No operation changes the setup of a swarm, whether it succeeds or fails. -/
theorem Operation.leads_perform_sameSetup (o : Objective σ) (op : Operation) :
    Attempt.Leads Stage.SameSetup (op.perform o : Course σ γ (Option Bool)) :=
  op.leads_perform Stage.SameSetup.refl Stage.SameSetup.trans (fun _ => rfl) (fun _ => rfl)
    (fun _ => rfl) (fun _ => rfl) (fun _ => rfl) fun _ => Swarm.leads_scatter_sameSetup

end Setup

end ParticleSwarm
