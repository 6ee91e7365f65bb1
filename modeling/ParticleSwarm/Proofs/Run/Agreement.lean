import ParticleSwarm.Proofs.Run.Course
import ParticleSwarm.Proofs.Swarm.Passing

/-!
# Objectives that follow the same function

Two objectives may fail at different questions and remember different things.  As long as neither
fails and both give the values of one function, the swarms go through the same places with the same
generators, so two runs that succeed have the same result, and so do two batches.
-/

namespace ParticleSwarm.Optimizer

open Attempt

variable {ρ σ τ γ : Type} [WordSource γ]

def withObjective (opt : Optimizer σ) (o : Objective τ) : Optimizer τ :=
  ⟨o, opt.name, opt.config, opt.valid⟩

variable {o : Objective σ} {o' : Objective τ} {f : Point → Float} {st : Stage σ γ}
  {st' : Stage τ γ}

/-! ### Steps -/

/-- The same swarm and the same generator. -/
structure SamePlace (st : Stage σ γ) (st' : Stage τ γ) : Prop where
  swarm : st'.swarm = st.swarm
  generator : st'.generator = st.generator

theorem SamePlace.scatter (h : SamePlace st st') :
    SamePlace (Swarm.scatter st).2 (Swarm.scatter st').2 := by
  rw [Swarm.scatter_apply, Swarm.scatter_apply, h.swarm, h.generator]
  cases Sampler.build st.swarm.bounds st.swarm.sampling with
  | error e => exact ⟨rfl, rfl⟩
  | ok sampler => exact ⟨rfl, rfl⟩

variable (hf : o.Follows f) (hf' : o'.Follows f)
include hf hf'

theorem SamePlace.start (h : SamePlace st st') (hok : (Swarm.start o st).1 = .ok ())
    (hok' : (Swarm.start o' st').1 = .ok ()) :
    SamePlace (Swarm.start o st).2 (Swarm.start o' st').2 := by
  obtain ⟨-, hstart⟩ := Swarm.start_eq_pass hok
  obtain ⟨-, hstart'⟩ := Swarm.start_eq_pass hok'
  rw [hstart] at hok ⊢
  rw [hstart'] at hok' ⊢
  constructor
  · rw [Swarm.swarm_pass_of_ok hf hok, Swarm.swarm_pass_of_ok hf' hok', h.scatter.swarm]
  · rw [Swarm.generator_pass, Swarm.generator_pass, h.scatter.generator]

/-- Steps that succeed lead two runs at the same place to the same place. -/
theorem SamePlace.recordedStep (h : SamePlace st st') {number : Nat}
    (hok : (Swarm.step o st).1 = .ok ()) (hok' : (Swarm.step o' st').1 = .ok ()) :
    SamePlace (recordedStep o number st).2 (recordedStep o' number st').2 := by
  obtain ⟨hstep, hdrawn⟩ := Swarm.step_of_ok hf hok
  obtain ⟨hstep', hdrawn'⟩ := Swarm.step_of_ok hf' hok'
  rw [h.swarm, h.generator] at hstep' hdrawn'
  rw [recordedStep_of_ok hok, recordedStep_of_ok hok']
  exact ⟨hstep'.trans hstep.symm, hdrawn'.trans hdrawn.symm⟩

theorem SamePlace.stageAfter (h : SamePlace st st') {n : Nat}
    (hok : ∀ k < n, (Swarm.step o (stageAfter o 0 st k)).1 = .ok ())
    (hok' : ∀ k < n, (Swarm.step o' (stageAfter o' 0 st' k)).1 = .ok ()) :
    ∀ k ≤ n, SamePlace (stageAfter o 0 st k) (stageAfter o' 0 st' k) := by
  intro k hk
  induction k with
  | zero => exact h
  | succ k ih =>
    exact (ih (Nat.le_of_succ_le hk)).recordedStep hf hf' (hok k hk) (hok' k hk)

/-! ### Runs and batches -/

/-- Where both succeed, the results are the same. -/
theorem course_eq_of_follows (h : SamePlace st st') {n : Nat} {r r' : RunResult}
    (hok : (course o n st).1 = .ok r) (hok' : (course o' n st').1 = .ok r') : r' = r := by
  obtain ⟨hstart, hsteps, hbest, hhistory⟩ := course_eq_ok hok
  obtain ⟨hstart', hsteps', hbest', hhistory'⟩ := course_eq_ok hok'
  have hplaces := (h.start hf hf' hstart hstart').stageAfter hf hf' hsteps hsteps'
  have hcosts : r'.history.toList = r.history.toList := by
    rw [hhistory, hhistory']
    apply List.map_congr_left
    intro k hk
    rw [(hplaces k (Nat.le_of_lt_succ (List.mem_range.mp hk))).swarm]
  rw [(hplaces n (Nat.le_refl n)).swarm, ← hbest] at hbest'
  exact RunResult.ext_toList hbest' hcosts

variable {opt : Optimizer ρ} {generatorFor : Nat → γ} {session : Session σ}
  {session' : Session τ}

/-- Runs that succeed report what the function and the generators determine.  By induction on the
    number of runs, since the memories may differ at the beginning of each. -/
theorem runs_eq_of_follows {count first : Nat} {rs rs' : List RunResult}
    (hok : ((opt.withObjective o).runs generatorFor count first session).1 = .ok rs)
    (hok' : ((opt.withObjective o').runs generatorFor count first session').1 = .ok rs') :
    rs' = rs := by
  induction count generalizing first session session' rs rs' with
  | zero =>
    cases hok
    cases hok'
    rfl
  | succ count ih =>
    rw [runs] at hok hok'
    obtain ⟨r, hr, hok⟩ := bind_fst_eq_ok.mp hok
    obtain ⟨r', hr', hok'⟩ := bind_fst_eq_ok.mp hok'
    obtain ⟨-, -, hok⟩ := bind_fst_eq_ok.mp hok
    obtain ⟨-, -, hok'⟩ := bind_fst_eq_ok.mp hok'
    obtain ⟨rest, hrest, hok⟩ := bind_fst_eq_ok.mp hok
    obtain ⟨rest', hrest', hok'⟩ := bind_fst_eq_ok.mp hok'
    cases hok
    cases hok'
    rw [ih hrest hrest', course_eq_of_follows hf hf' ⟨rfl, rfl⟩ hr hr']

theorem batch_eq_of_follows {summary summary' : Summary}
    (hok : ((opt.withObjective o).batch generatorFor session).1 = .ok summary)
    (hok' : ((opt.withObjective o').batch generatorFor session').1 = .ok summary') :
    summary' = summary := by
  obtain ⟨-, -, hok⟩ := bind_fst_eq_ok.mp hok
  obtain ⟨-, -, hok'⟩ := bind_fst_eq_ok.mp hok'
  obtain ⟨rs, hrs, hok⟩ := bind_fst_eq_ok.mp hok
  obtain ⟨rs', hrs', hok'⟩ := bind_fst_eq_ok.mp hok'
  cases hok
  cases hok'
  rw [runs_eq_of_follows hf hf' hrs hrs']
  rfl

end ParticleSwarm.Optimizer
