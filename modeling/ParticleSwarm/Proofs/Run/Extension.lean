import ParticleSwarm.Proofs.Run.Descent

/-!
# Longer runs extend shorter ones

Nothing in a run depends on how many steps are still to come.  So a run is a shorter run that is
resumed: where the shorter one ends, the longer one is after as many steps, and what the shorter one
has recorded is what the longer one has recorded by then.
-/

namespace ParticleSwarm.Optimizer

open Attempt

variable {σ γ : Type} [WordSource γ] {o : Objective σ} {st : Stage σ γ}

def withIterations (opt : Optimizer σ) (count : UInt64) : Optimizer σ where
  objective := opt.objective
  name := opt.name
  config := opt.config.set (.maxIterations count)
  valid := opt.valid

/-! ### Resuming a run -/

/-- Goes on after a run with `taken` steps: takes more steps and reports anew. -/
def resume (o : Objective σ) (more taken : Nat) (r : RunResult) : Course σ γ RunResult := do
  let history ← iterate o more taken r.history
  return ⟨(← get).swarm.leader, history⟩

/-- Steps can be taken in two portions, as the second one goes on counting. -/
theorem iterate_add (o : Objective σ) (m n first : Nat) (h : History) :
    (iterate o (m + n) first h : Course σ γ History) =
      iterate o m first h >>= iterate o n (first + m) := by
  induction m generalizing first h with
  | zero =>
    rw [Nat.zero_add, Nat.add_zero]
    exact (pure_bind h _).symm
  | succ m ih =>
    have hfirst : first + (m + 1) = first + 1 + m := by omega
    rw [Nat.succ_add, iterate_succ, iterate_succ, bind_assoc, hfirst]
    simp only [ih]

/-- A run is a shorter run, resumed. -/
theorem course_add (o : Objective σ) (m n : Nat) :
    (course o (m + n) : Course σ γ RunResult) = course o m >>= resume o n m := by
  simp only [course, resume, iterate_add, bind_assoc, pure_bind, Nat.zero_add]
  rfl

/-! ### Where a run ends -/

theorem course_snd_of_ok {n : Nat} {r : RunResult} (hok : (course o n st).1 = .ok r) :
    (course o n st).2 = stageAfter o 0 (Swarm.start o st).2 n := by
  obtain ⟨⟨⟩, hstart, hok⟩ := bind_fst_eq_ok.mp hok
  rw [bind_of_ok rfl] at hok
  obtain ⟨history, hiterate, -⟩ := bind_fst_eq_ok.mp hok
  obtain ⟨-, hstage, -⟩ := iterate_eq_ok hiterate
  rw [course, bind_of_ok hstart, bind_of_ok rfl, bind_of_ok hiterate]
  exact hstage

/-- Costs are recorded step by step, so a shorter run has recorded the first of them. -/
theorem history_course_of_le {m n : Nat} (hle : m ≤ n) {r r' : RunResult}
    (hok : (course o n st).1 = .ok r) (hok' : (course o m st).1 = .ok r') :
    r'.history.toList = r.history.toList.take (m + 1) := by
  obtain ⟨-, -, -, hhistory⟩ := course_eq_ok hok
  obtain ⟨-, -, -, hhistory'⟩ := course_eq_ok hok'
  rw [hhistory, hhistory', ← List.map_take, List.take_range, Nat.min_eq_left (Nat.succ_le_succ hle)]

/-- Later stages of a run are nowhere worse. -/
theorem leadsOn_stageAfter_of_le (o : Objective σ) (first : Nat) (st : Stage σ γ) {m n : Nat}
    (hle : m ≤ n) : (stageAfter o first st m).LeadsOn (stageAfter o first st n) := by
  induction n, hle using Nat.le_induction with
  | base => exact .refl _
  | succ n _ ih => exact ih.trans (leadsOn_stageAfter_succ o first st n)

/-- **Longer runs extend shorter ones.**  If the run with the larger number of steps succeeds, so
    does the run with the smaller one.  It records one cost more than it takes steps, and these are
    the first costs of the longer run; what it reports is the last of them.  It ends at the stage
    that the longer run has reached after as many steps, and resumed from there for the steps that
    are left it gives the result of the longer run, at the same stage.  The cost that is reported
    never goes up with the number of steps. -/
theorem runWith_extends {opt : Optimizer σ} {fewer more : UInt64} (hle : fewer ≤ more)
    {session : Session σ} {g : γ} {r : RunResult}
    (hok : ((opt.withIterations more).runWith g session).1 = .ok r) :
    let st := stage opt.config session g
    let left := more.toNat - fewer.toNat
    ∃ r', ((opt.withIterations fewer).runWith g session).1 = .ok r' ∧
      (r'.history.size = fewer.toNat + 1 ∧
        r'.history.toList = r.history.toList.take (fewer.toNat + 1) ∧
        r.history.toList[fewer.toNat]? = some r'.best.fitness) ∧
      ((course opt.objective fewer.toNat st).2 =
          stageAfter opt.objective 0 (Swarm.start opt.objective st).2 fewer.toNat ∧
        resume opt.objective left fewer.toNat r' (course opt.objective fewer.toNat st).2 =
          course opt.objective more.toNat st) ∧
      r.best.fitness ≤ r'.best.fitness := by
  intro st left
  rw [UInt64.le_iff_toNat_le] at hle
  have hcount : fewer.toNat + left = more.toNat := Nat.add_sub_cancel' hle
  have hlonger : (course opt.objective more.toNat st).1 = .ok r := hok
  have hsplit := hlonger
  rw [← hcount, course_add] at hsplit
  obtain ⟨r', hshorter, -⟩ := bind_fst_eq_ok.mp hsplit
  have hfirst := history_course_of_le hle hlonger hshorter
  obtain ⟨-, -, hbest, -⟩ := course_eq_ok hlonger
  obtain ⟨-, -, hbest', hhistory'⟩ := course_eq_ok hshorter
  have hlast : r'.history.toList[fewer.toNat]? = some r'.best.fitness := by
    rw [hhistory', hbest', List.getElem?_map, List.getElem?_range (Nat.lt_succ_self _),
      Option.map_some]
  refine ⟨r', hshorter, ⟨?_, hfirst, ?_⟩, ⟨course_snd_of_ok hshorter, ?_⟩, ?_⟩
  · rw [← History.length_toList, hhistory', List.length_map, List.length_range]
  · rw [hfirst, List.getElem?_take_of_lt (Nat.lt_succ_self _)] at hlast
    exact hlast
  · rw [← hcount, course_add, bind_of_ok hshorter]
  · rw [hbest, hbest']
    have hleads := leadsOn_stageAfter_of_le opt.objective 0 (Swarm.start opt.objective st).2 hle
    exact hleads.givesWay.fitness_le (isRank_stageAfter 0 (Swarm.isRank_leader_start _ _) _)

/-- Of the two steps of `fickle` the first one leaves the cost alone, so a run without the second
    one reports the cost `4` with which the run begins. -/
theorem fickle_extends :
    let o : Objective (List Float) := fickle.objective
    let st := stage fickle.config recital (Generator.ofWords recitalWords)
    (1 : UInt64) ≤ 2 ∧
    ((fickle.withIterations 2).runWith (Generator.ofWords recitalWords) recital).1 =
      .ok ⟨⟨⟨1, -1⟩, 2⟩, ⟨#[4, 4, 2]⟩⟩ ∧
    ∃ r', ((fickle.withIterations 1).runWith (Generator.ofWords recitalWords) recital).1 = .ok r' ∧
      r'.history.toList = [4, 4] ∧ r'.best.fitness = 4 ∧
      resume o 1 1 r' (course o 1 st).2 = course o 2 st ∧ (2 : Float) ≤ r'.best.fitness := by
  intro o st
  have hle : (1 : UInt64) ≤ 2 := by decide
  have hlonger : ((fickle.withIterations 2).runWith (Generator.ofWords recitalWords) recital).1 =
      .ok ⟨⟨⟨1, -1⟩, 2⟩, ⟨#[4, 4, 2]⟩⟩ := runWith_fickle
  obtain ⟨r', hshorter, ⟨-, hfirst, hlast⟩, ⟨-, hresume⟩, hbest⟩ := runWith_extends hle hlonger
  exact ⟨hle, hlonger, r', hshorter, hfirst, (Option.some.inj hlast).symm, hresume, hbest⟩

end ParticleSwarm.Optimizer
