import ParticleSwarm.Optimizer
import ParticleSwarm.Proofs.Swarm.Operations

/-!
# The course of a run

A run is a start followed by steps, with a note on each.  `stageAfter` is where a run is after a
number of steps; a run that succeeds has made all of its steps with success, it reports the leader
of the last stage, and its history holds the fitness of the leader at every stage.
-/

namespace ParticleSwarm

theorem RunResult.ext_toList {r r' : RunResult} (hbest : r.best = r'.best)
    (hcosts : r.history.toList = r'.history.toList) : r = r' := by
  rcases r with ⟨best, ⟨costs⟩⟩
  rcases r' with ⟨best', ⟨costs'⟩⟩
  obtain rfl : best = best' := hbest
  obtain rfl : costs = costs' := Array.toList_inj.mp hcosts
  rfl

namespace Optimizer

variable {σ γ : Type} [WordSource γ] {o : Objective σ} {st : Stage σ γ}

/-! ### Steps with their notes -/

/-- One step and the note on it, under its number.  Gives the fitness of the leader. -/
def recordedStep (o : Objective σ) (number : Nat) : Course σ γ Float := do
  Swarm.step o
  let fitness := (← get).swarm.leader.fitness
  Course.note (.iteration number fitness)
  return fitness

theorem recordedStep_of_ok {number : Nat} (h : (Swarm.step o st).1 = .ok ()) :
    recordedStep o number st =
      let st' := (Swarm.step o st).2
      (.ok st'.swarm.leader.fitness,
        { st' with session := st'.session.note (.iteration number st'.swarm.leader.fitness) }) :=
  Attempt.bind_of_ok h

theorem recordedStep_eq_ok {number : Nat} {v : Float} (h : (recordedStep o number st).1 = .ok v) :
    (Swarm.step o st).1 = .ok () ∧ v = (recordedStep o number st).2.swarm.leader.fitness := by
  obtain ⟨⟨⟩, hstep, -⟩ := Attempt.bind_fst_eq_ok.mp h
  refine ⟨hstep, ?_⟩
  rw [recordedStep_of_ok hstep] at h ⊢
  cases h
  rfl

theorem swarm_recordedStep (o : Objective σ) (number : Nat) (st : Stage σ γ) :
    (recordedStep o number st).2.swarm = (Swarm.step o st).2.swarm := by
  rcases h : (Swarm.step o st).1 with e | ⟨⟨⟩⟩
  · rw [recordedStep, Attempt.bind_of_error h]
  · rw [recordedStep_of_ok h]

theorem iterate_succ (o : Objective σ) (count first : Nat) (h : History) :
    (iterate o (count + 1) first h : Course σ γ History) =
      recordedStep o first >>= fun fitness => iterate o count (first + 1) (h.observe fitness) := by
  simp only [iterate, recordedStep, bind_assoc, pure_bind]

/-! ### The stages of a run -/

def stageAfter (o : Objective σ) (first : Nat) (st : Stage σ γ) : Nat → Stage σ γ
  | 0 => st
  | n + 1 => (recordedStep o (first + n) (stageAfter o first st n)).2

theorem stageAfter_succ (o : Objective σ) (first : Nat) (st : Stage σ γ) (n : Nat) :
    stageAfter o first st (n + 1) = stageAfter o (first + 1) (recordedStep o first st).2 n := by
  induction n with
  | zero => rfl
  | succ n ih =>
    rw [stageAfter, ih, stageAfter]
    congr 2
    omega

/-- Steps that come to their end have all succeeded, and the history has grown by the leader's
    fitness after each of them.  By induction on their number. -/
theorem iterate_eq_ok {count first : Nat} {h history : History}
    (hok : (iterate o count first h st).1 = .ok history) :
    (∀ k < count, (Swarm.step o (stageAfter o first st k)).1 = .ok ()) ∧
      (iterate o count first h st).2 = stageAfter o first st count ∧
      history.toList = h.toList ++
        (List.range count).map fun k => (stageAfter o first st (k + 1)).swarm.leader.fitness := by
  induction count generalizing first h st with
  | zero =>
    cases hok
    exact ⟨fun k hk => absurd hk (Nat.not_lt_zero k), rfl, (List.append_nil _).symm⟩
  | succ count ih =>
    rw [iterate_succ] at hok ⊢
    obtain ⟨v, hv, hok⟩ := Attempt.bind_fst_eq_ok.mp hok
    rw [Attempt.bind_of_ok hv]
    obtain ⟨hstep, rfl⟩ := recordedStep_eq_ok hv
    obtain ⟨hsteps, hstage, hhistory⟩ := ih hok
    simp only [← stageAfter_succ] at hsteps hstage hhistory
    refine ⟨?_, hstage, ?_⟩
    · intro k hk
      cases k with
      | zero => exact hstep
      | succ k => exact hsteps k (Nat.lt_of_succ_lt_succ hk)
    · rw [hhistory, History.toList_observe, List.append_assoc, List.range_succ_eq_map,
        List.map_cons, List.map_map]
      rfl

/-- A run that succeeds has made all its steps, and reports what it saw. -/
theorem course_eq_ok {n : Nat} {r : RunResult} (h : (course o n st).1 = .ok r) :
    (Swarm.start o st).1 = .ok () ∧
      (∀ k < n, (Swarm.step o (stageAfter o 0 (Swarm.start o st).2 k)).1 = .ok ()) ∧
      r.best = (stageAfter o 0 (Swarm.start o st).2 n).swarm.leader ∧
      r.history.toList = (List.range (n + 1)).map fun k =>
        (stageAfter o 0 (Swarm.start o st).2 k).swarm.leader.fitness := by
  obtain ⟨⟨⟩, hstart, h⟩ := Attempt.bind_fst_eq_ok.mp h
  obtain ⟨st₁, hst₁, h⟩ := Attempt.bind_fst_eq_ok.mp h
  cases hst₁
  obtain ⟨history, hiterate, h⟩ := Attempt.bind_fst_eq_ok.mp h
  obtain ⟨hsteps, hstage, hhistory⟩ := iterate_eq_ok hiterate
  cases h
  refine ⟨hstart, hsteps, congrArg (·.swarm.leader) hstage, ?_⟩
  rw [hhistory, List.range_succ_eq_map, List.map_cons, List.map_map]
  rfl

end Optimizer

end ParticleSwarm
