import ParticleSwarm.Proofs.Run.Course
import ParticleSwarm.Proofs.Swarm.Mirroring
import ParticleSwarm.Proofs.Swarm.Passing

/-!
# The pass of a start leaves no trace

A start ends with a pass, and the first step begins with another one.  When the objective answers by
the point alone, the second pass asks at no other point, so it cannot fail, and it comes to the swarm
that it begins with.  So a run that starts without a pass makes the same moves, and ends in the same
way, as soon as it takes a step.
-/

namespace ParticleSwarm

open Fitness Attempt

/-! ### What a swarm has in common with itself -/

theorem Leader.Sound.mirrors_self {f : Point → Float} {l : Leader} (h : l.Sound f) :
    l.Mirrors Eq l := by
  refine ⟨rfl, ?_⟩
  rcases h with rfl | ⟨hfinite, -⟩
  · exact Or.inl ⟨rfl, rfl⟩
  · exact Or.inr ⟨hfinite, hfinite, rfl⟩

/-- It does not matter what the objective remembers. -/
theorem Objective.AnswersBy.mirrors_self {σ : Type} {o : Objective σ} {answer : Point → Answer}
    (h : o.AnswersBy answer) : o.Mirrors Eq (fun _ _ => True) o := by
  intro p m m' _
  rw [h m p, h m' p]
  exact ⟨SameOutcome.refl (fun _ => rfl) _, trivial⟩

namespace Swarm

variable {σ γ : Type} [WordSource γ] {o : Objective σ} {answer : Point → Answer}
  {st : Stage σ γ}

/-! ### Steps with and without a pass in front -/

def steps (o : Objective σ) : Nat → Course σ γ Unit
  | 0 => return ()
  | n + 1 => do
    step o
    steps o n

def stepsFrom (o : Objective σ) (first : Course σ γ Unit) (n : Nat) : Course σ γ Unit := do
  first
  steps o n

/-- The same outcome, and after a success the same swarm and the same generator. -/
def EndsAlike (x y : Except SearchError Unit × Stage σ γ) : Prop :=
  x.1 = y.1 ∧ (x.1 = .ok () → x.2.swarm = y.2.swarm ∧ x.2.generator = y.2.generator)

theorem coupled_steps {τ : Type} {q : Float → Float → Prop} {M : σ → τ → Prop}
    {o' : Objective τ} (hq : KeepsOrder q) (h : o.Mirrors q M o') (n : Nat) :
    Coupled (Stage.Mirrors q M) Eq (steps o n : Course σ γ Unit)
      (steps o' n : Course τ γ Unit) := by
  induction n with
  | zero => exact .pure rfl
  | succ n ih =>
    apply (coupled_step hq h).bind_eq
    intro _
    exact ih

/-- The first step comes to the same swarm with a pass in front of it and without. -/
theorem step_pass (h : o.AnswersBy answer) (hb : st.swarm.bounds.Good)
    (hsound : st.swarm.leader.Sound (Answer.valueAt answer)) (hok : (pass o st).1 = .ok ()) :
    (step o st).1 = .ok () ∧ (step o (pass o st).2).1 = .ok () ∧
      (step o (pass o st).2).2.Mirrors Eq (fun _ _ => True) (step o st).2 := by
  obtain ⟨hagain, -⟩ := pass_pass h hb hsound hok
  have hstep : (step o st).1 = .ok () := by rw [step_of_pass hok]
  have hstep' : (step o (pass o st).2).1 = .ok () := by rw [step_of_pass hagain]
  obtain ⟨hswarm, hgenerator⟩ := step_of_ok h.follows hstep
  obtain ⟨hswarm', hgenerator'⟩ := step_of_ok h.follows hstep'
  rw [swarm_pass_of_ok h.follows hok, passed_passed hb hsound, generator_pass] at hswarm' hgenerator'
  refine ⟨hstep, hstep', ?_, trivial, hgenerator.trans hgenerator'.symm⟩
  rw [hswarm, hswarm']
  apply mirrors_of_leader
  have hleader : (st.swarm.passed (Answer.valueAt answer)).leader.Sound (Answer.valueAt answer) :=
    hsound.foldl_meet _
  exact hleader.mirrors_self

/-- A pass in front of one step or more cannot be told from none. -/
theorem stepsFrom_pass (h : o.AnswersBy answer) (hb : st.swarm.bounds.Good)
    (hsound : st.swarm.leader.Sound (Answer.valueAt answer)) (n : Nat) :
    EndsAlike (stepsFrom o (pass o) (n + 1) st) (steps o (n + 1) st) := by
  rcases hpass : (pass o st).1 with e | ⟨⟨⟩⟩
  · have hstep : (step o st).1 = .error e := by rw [step, bind_of_error hpass]
    rw [stepsFrom, bind_of_error hpass, steps, bind_of_error hstep]
    exact ⟨rfl, fun hok => by cases hok⟩
  · obtain ⟨hstep, hstep', hmirrors⟩ := step_pass h hb hsound hpass
    rw [stepsFrom, bind_of_ok hpass, steps, bind_of_ok hstep, bind_of_ok hstep']
    -- from here on both runs go through the same swarms, though not with the same memory and log
    obtain ⟨hout, hend⟩ := coupled_steps keepsOrder_eq h.mirrors_self n _ _ hmirrors
    exact ⟨hout.eq, fun _ => ⟨hend.swarm.eq.symm, hend.generator.symm⟩⟩

/-! ### Starts with and without a pass -/

theorem good_bounds_scatter (hb : st.swarm.bounds.Good) :
    (scatter st).2.swarm.bounds.Good := by
  rwa [Stage.SameSetup.bounds (leads_scatter_sameSetup st)]

/-- A second pass changes nothing and asks nothing new, so it cannot fail. -/
theorem pass_start (h : o.AnswersBy answer) (hb : st.swarm.bounds.Good)
    (hok : (start o st).1 = .ok ()) :
    (pass o (start o st).2).1 = .ok () ∧
      (pass o (start o st).2).2.swarm = (start o st).2.swarm := by
  obtain ⟨-, hstart⟩ := start_eq_pass hok
  rw [hstart] at hok ⊢
  exact pass_pass h (good_bounds_scatter hb) (Or.inl (fresh_scatter st).leader) hok

/-- The first two costs of a run are the same. -/
theorem getElem?_history_of_course (h : o.AnswersBy answer) (hb : st.swarm.bounds.Good) {n : Nat}
    {r : RunResult} (hr : (Optimizer.course o (n + 1) st).1 = .ok r) :
    r.history.toList[0]? = some (start o st).2.swarm.leader.fitness ∧
      r.history.toList[1]? = some (start o st).2.swarm.leader.fitness := by
  obtain ⟨hstart, -, -, hhistory⟩ := Optimizer.course_eq_ok hr
  obtain ⟨hpass, hswarm⟩ := pass_start h hb hstart
  have hleader : (step o (start o st).2).2.swarm.leader = (start o st).2.swarm.leader := by
    rw [step_of_pass hpass, hswarm]
    rfl
  rw [hhistory]
  simp [Optimizer.stageAfter, Optimizer.swarm_recordedStep, hleader]

/-- **The pass of a start leaves no trace.**  For an objective that answers by the point alone, a
    start and one step or more have the outcome of a start without a pass and the same steps, and
    when they succeed they end with the same swarm and the same generator.  After a start that
    succeeds, the pass of the first step changes nothing and cannot fail. -/
theorem stepsFrom_start (h : o.AnswersBy answer) (hvalid : st.swarm.bounds.validate = .ok ())
    (n : Nat) :
    EndsAlike (stepsFrom o (start o) (n + 1) st) (stepsFrom o scatter (n + 1) st) ∧
    ((start o st).1 = .ok () →
      (pass o (start o st).2).1 = .ok () ∧
        (pass o (start o st).2).2.swarm = (start o st).2.swarm ∧
        (pass o (start o st).2).2.generator = (start o st).2.generator) ∧
    ∀ r, (Optimizer.course o (n + 1) st).1 = .ok r →
      ∃ cost, r.history.toList[0]? = some cost ∧ r.history.toList[1]? = some cost := by
  have hb := Bounds.validate_eq_ok_iff.mp hvalid
  refine ⟨?_, ?_, ?_⟩
  · rcases hscatter : (scatter st).1 with e | ⟨⟨⟩⟩
    · have hstart : (start o st).1 = .error e := by rw [start, bind_of_error hscatter]
      rw [stepsFrom, bind_of_error hstart, stepsFrom, bind_of_error hscatter]
      exact ⟨rfl, fun hok => by cases hok⟩
    · have hfull : stepsFrom o (start o) (n + 1) st =
          stepsFrom o (pass o) (n + 1) (scatter st).2 := by
        simp only [stepsFrom, start, bind_assoc]
        exact bind_of_ok hscatter
      have hbare : stepsFrom o scatter (n + 1) st = steps o (n + 1) (scatter st).2 :=
        bind_of_ok hscatter
      rw [hfull, hbare]
      exact stepsFrom_pass h (good_bounds_scatter hb) (Or.inl (fresh_scatter st).leader) n
  · intro hok
    obtain ⟨hpass, hswarm⟩ := pass_start h hb hok
    exact ⟨hpass, hswarm, generator_pass o _⟩
  · intro r hr
    exact ⟨_, getElem?_history_of_course h hb hr⟩

def slope (p : Point) : Answer := if p.x > 5 then .error "no value" else .ok (p.x - p.y)

/-- Two particles on a square without the origin, where even the velocity zero lies beyond the ends
    of the axes. -/
theorem slope_stepsFrom_start :
    let half : UInt64 := 0x8000000000000000
    let quarter : UInt64 := 0x4000000000000000
    let o := Objective.ofFunction slope
    let c : Config := { populationSize := 2, bounds := .square 1 8 }
    let st := Optimizer.stage c ⟨(), #[]⟩
      (Generator.ofWords [half, 0, half, 0, quarter, 0, half, 0, quarter, half, quarter, quarter])
    let r : RunResult := ⟨⟨⟨2, 4⟩, -2⟩, ⟨#[-2, -2, -2]⟩⟩
    (o.AnswersBy slope ∧ st.swarm.bounds.validate = .ok () ∧ (start o st).1 = .ok () ∧
      (Optimizer.course o 2 st).1 = .ok r) ∧
    EndsAlike (stepsFrom o (start o) 2 st) (stepsFrom o scatter 2 st) ∧
    (stepsFrom o (start o) 2 st).1 = .ok () ∧
    (pass o (start o st).2).1 = .ok () ∧
    ∃ cost, r.history.toList[0]? = some cost ∧ r.history.toList[1]? = some cost := by
  intro half quarter o c st r
  have hanswers : o.AnswersBy slope := fun _ _ => rfl
  have hvalid : st.swarm.bounds.validate = .ok () := eq_ok_of_toOption (by decide +kernel)
  have hstart : (start o st).1 = .ok () := eq_ok_of_toOption (by decide +kernel)
  have hcourse : (Optimizer.course o 2 st).1 = .ok r := eq_ok_of_toOption (by decide +kernel)
  have hsteps : (stepsFrom o (start o) 2 st).1 = .ok () := eq_ok_of_toOption (by decide +kernel)
  obtain ⟨halike, hpass, hcosts⟩ := stepsFrom_start hanswers hvalid 1
  exact ⟨⟨hanswers, hvalid, hstart, hcourse⟩, halike, hsteps, (hpass hstart).1, hcosts r hcourse⟩

end Swarm

end ParticleSwarm
