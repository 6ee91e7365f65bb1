import ParticleSwarm.Proofs.Run.Agreement
import ParticleSwarm.Proofs.Swarm.Questions

/-!
# The questions of a run and of a batch

A run asks what its passes ask, one pass after the other, and nothing in between.  So the number of
its questions depends on the size of the swarm and on the number of steps only, and it is the same
for every run of a batch.  An objective that gives out after a number of questions lets a batch
succeed exactly when that many are enough, and then the batch is the one of an objective that never
gives out.
-/

namespace ParticleSwarm.Optimizer

open Attempt

variable {σ γ : Type} [WordSource γ]

/-! ### The questions of a run -/

section Course

variable {o : Objective σ} {st : Stage σ γ}

/-- The questions of a run in a pass.  The first pass, with index zero, belongs to the start, the
    others to the steps. -/
def questions (o : Objective σ) (st : Stage σ γ) : Nat → List Point
  | 0 => Swarm.questions o (Swarm.scatter st).2
  | t + 1 => Swarm.questions o (stageAfter o 0 (Swarm.start o st).2 t)

theorem asks_recordedStep (o : Objective σ) (number : Nat) (st : Stage σ γ) :
    Asks o Stage.memory (Swarm.questions o st) (recordedStep o number) st :=
  (Swarm.asks_step o st).bind_silent fun _ _ => .silent rfl rfl

/-- The questions of steps are those of their passes in turn, up to the first failure. -/
theorem asks_iterate (o : Objective σ) (count first : Nat) (h : History) (st : Stage σ γ) :
    Asks o Stage.memory
      ((List.range count).flatMap fun t => Swarm.questions o (stageAfter o first st t))
      (iterate o count first h) st := by
  induction count generalizing first h st with
  | zero => exact .silent rfl rfl
  | succ count ih =>
    rw [iterate_succ, List.range_succ_eq_map, List.flatMap_cons, List.flatMap_map]
    apply (asks_recordedStep o first st).bind
    intro fitness _
    simp only [stageAfter_succ]
    exact ih (first + 1) _ _

/-- A run asks in its passes and nowhere else. -/
theorem asks_course (hok : (Swarm.scatter st).1 = .ok ()) (o : Objective σ) (n : Nat) :
    Asks o Stage.memory ((List.range (n + 1)).flatMap (questions o st)) (course o n) st := by
  rw [List.range_succ_eq_map, List.flatMap_cons, List.flatMap_map]
  apply (Swarm.asks_start hok o).bind
  intro _ _
  apply Asks.silent_bind (.silent rfl rfl)
  intro st' hst'
  cases hst'
  apply (asks_iterate o n 0 _ _).bind_silent
  intro history _
  exact .silent rfl rfl

theorem length_particles_stageAfter (o : Objective σ) (first : Nat) (st : Stage σ γ) (n : Nat) :
    (stageAfter o first st n).swarm.particles.length = st.swarm.particles.length := by
  induction n with
  | zero => rfl
  | succ n ih =>
    rw [stageAfter, swarm_recordedStep, ← ih]
    exact Swarm.leads_step_sameCount o _

/-- Two questions for the review of a particle, and one for the scan. -/
theorem length_questions (hok : (Swarm.scatter st).1 = .ok ()) (o : Objective σ) (t : Nat) :
    (questions o st t).length = 3 * st.swarm.populationSize.toNat := by
  cases t with
  | zero => rw [questions, Swarm.length_questions, Swarm.length_particles_scatter hok]
  | succ t =>
    have hstart : (Swarm.start o st).2.swarm.particles.length =
        (Swarm.scatter st).2.swarm.particles.length := by
      rw [Swarm.start, bind_of_ok hok]
      exact Swarm.leads_pass_sameCount o _
    rw [questions, Swarm.length_questions, length_particles_stageAfter, hstart,
      Swarm.length_particles_scatter hok]

theorem length_flatMap_questions (hok : (Swarm.scatter st).1 = .ok ()) (o : Objective σ)
    (n : Nat) :
    ((List.range n).flatMap (questions o st)).length = 3 * st.swarm.populationSize.toNat * n := by
  induction n with
  | zero => rfl
  | succ n ih =>
    rw [List.range_succ, List.flatMap_append, List.flatMap_singleton, List.length_append, ih,
      length_questions hok, Nat.mul_succ]

end Course

/-! ### Counting questions -/

def questionCount (c : Config) : Nat :=
  3 * c.populationSize.toNat * (c.maxIterations.toNat + 1)

section Counts

variable (opt : Optimizer σ) {sampler : Sampler}
  (hbuild : Sampler.build opt.config.bounds opt.config.sampling = .ok sampler)
include hbuild

theorem scatter_stage (session : Session σ) (g : γ) :
    (Swarm.scatter (stage opt.config session g)).1 = .ok () := by
  simp [Swarm.scatter_apply, stage, Swarm.ofConfig, hbuild]

/-- The questions of a run, in order, as long as the objective does not fail. -/
theorem asks_runWith (g : γ) (session : Session σ) :
    Asks opt.objective Session.memory
      ((List.range (opt.config.maxIterations.toNat + 1)).flatMap
        (questions opt.objective (stage opt.config session g)))
      (opt.runWith g) session :=
  asks_course (opt.scatter_stage hbuild session g) opt.objective opt.config.maxIterations.toNat

theorem asksTimes_runWith (g : γ) :
    AsksTimes opt.objective Session.memory (questionCount opt.config) (opt.runWith g) := by
  intro session
  exact ⟨_, length_flatMap_questions (opt.scatter_stage hbuild session g) _ _,
    opt.asks_runWith hbuild g session⟩

/-- Runs ask the same number of questions each. -/
theorem asksTimes_runs (generatorFor : Nat → γ) (count first : Nat) :
    AsksTimes opt.objective Session.memory (questionCount opt.config * count)
      (opt.runs generatorFor count first) := by
  induction count generalizing first with
  | zero => exact .silent (fun _ => ⟨[], rfl⟩) fun _ => rfl
  | succ count ih =>
    rw [Nat.mul_succ, Nat.add_comm, runs]
    apply (opt.asksTimes_runWith hbuild (generatorFor first)).bind
    intro run
    apply AsksTimes.silent_bind (.silent (fun _ => ⟨(), rfl⟩) fun _ => rfl)
    intro _
    exact (ih (first + 1)).bind fun rest => .silent (fun _ => ⟨run :: rest, rfl⟩) fun _ => rfl

/-- A batch asks the questions of all its runs. -/
theorem asksTimes_batch (generatorFor : Nat → γ) :
    AsksTimes opt.objective Session.memory
      (questionCount opt.config * opt.config.numRuns.toNat) (opt.batch generatorFor) := by
  apply AsksTimes.silent_bind (.silent (fun _ => ⟨(), rfl⟩) fun _ => rfl)
  intro _
  exact (opt.asksTimes_runs hbuild generatorFor _ 0).bind
    fun runs => .silent (fun _ => ⟨⟨opt.name, runs⟩, rfl⟩) fun _ => rfl

/-- A batch succeeds if its objective never fails. -/
theorem exists_batch_eq_ok (hanswers : ∀ m p, ∃ v, (opt.objective.answer m p).1 = .ok v)
    (generatorFor : Nat → γ) (session : Session σ) :
    ∃ summary, (opt.batch generatorFor session).1 = .ok summary := by
  obtain ⟨ps, -, hasks⟩ := opt.asksTimes_batch hbuild generatorFor session
  exact hasks.exists_eq_ok_iff.mpr (Objective.survey_eq_ok_of_forall hanswers ps session.memory)

/-- An objective with a budget lets a batch succeed exactly when the budget covers its questions. -/
theorem exists_batch_limited_iff (limit : Nat) (reason : Nat → Point → String) (f : Point → Float)
    (generatorFor : Nat → γ) (log : Array Event) :
    (∃ summary, ((opt.withObjective (.limited limit reason f)).batch generatorFor ⟨0, log⟩).1 =
        .ok summary) ↔
      questionCount opt.config * opt.config.numRuns.toNat ≤ limit := by
  let limited := opt.withObjective (.limited limit reason f)
  obtain ⟨ps, hps, hasks⟩ := limited.asksTimes_batch hbuild generatorFor ⟨0, log⟩
  have hlength : ps.length = questionCount opt.config * opt.config.numRuns.toNat := hps
  rw [hasks.exists_eq_ok_iff, ← hlength]
  exact Objective.survey_limited_zero_eq_ok_iff

/-- A batch within its budget is the batch of the objective that never gives out. -/
theorem batch_limited_eq_ok {limit : Nat} {reason : Nat → Point → String} {f : Point → Float}
    {generatorFor : Nat → γ} {session : Session Nat} {summary : Summary}
    (hok : ((opt.withObjective (.limited limit reason f)).batch generatorFor session).1 =
      .ok summary) (session' : Session Unit) :
    ((opt.withObjective (.ofFunction fun p => .ok (f p))).batch generatorFor session').1 =
      .ok summary := by
  let unlimited := opt.withObjective (.ofFunction fun p => .ok (f p))
  obtain ⟨ps, -, hasks⟩ := unlimited.asksTimes_batch hbuild generatorFor session'
  have hanswered : (unlimited.objective.survey ps session'.memory).1 = .ok () :=
    Objective.survey_eq_ok_of_forall (fun _ p => ⟨f p, rfl⟩) ps session'.memory
  obtain ⟨summary', hok'⟩ := hasks.exists_eq_ok_iff.mpr hanswered
  have hf : (Objective.limited limit reason f).Follows f :=
    fun _ _ _ h => Objective.eq_of_answer_limited h
  have hf' : unlimited.objective.Follows f := fun _ _ _ h => (Except.ok.inj h).symm
  have hsame : summary' = summary := batch_eq_of_follows hf hf' hok hok'
  rw [← hsame]
  exact hok'

end Counts

/-- **Which questions are asked, and how many.**  A step asks at the points of its pass, and so does
    a start once its particles are drawn.  When the sampler can be built, a run that succeeds has
    asked the questions of all its passes, three for each particle in each pass; a run that fails has
    asked the first of them, up to the one that the objective has no value for, and its error is the
    objective's.  An objective with a budget lets a batch succeed exactly when the budget covers the
    questions of all its runs, and then the batch is the same as without a budget. -/
theorem runWith_asks {opt : Optimizer σ} {sampler : Sampler}
    (hbuild : Sampler.build opt.config.bounds opt.config.sampling = .ok sampler) :
    (∀ st : Stage σ γ,
      Asks opt.objective Stage.memory (Swarm.questions opt.objective st)
        (Swarm.step opt.objective) st ∧
      ((Swarm.scatter st).1 = .ok () →
        Asks opt.objective Stage.memory (Swarm.questions opt.objective (Swarm.scatter st).2)
          (Swarm.start opt.objective) st)) ∧
    (∀ (g : γ) (session : Session (σ × Array Point)),
      let recorded := opt.withObjective opt.objective.recorded
      let run := recorded.runWith g session
      let schedule := (List.range (opt.config.maxIterations.toNat + 1)).flatMap
        (questions recorded.objective (stage opt.config session g))
      schedule.length = questionCount opt.config ∧
      (∀ r, run.1 = .ok r →
        run.2.memory.2.toList = session.memory.2.toList ++ schedule) ∧
      ∀ e, run.1 = .error e → ∃ front last rest m reason,
        schedule = front ++ last :: rest ∧
        run.2.memory.2.toList = session.memory.2.toList ++ (front ++ [last]) ∧
        recorded.objective.survey front session.memory = (.ok (), m) ∧
        (opt.objective.answer m.1 last).1 = .error reason ∧ e = .objectiveFailed reason) ∧
    ∀ (limit : Nat) (reason : Nat → Point → String) (f : Point → Float) (generatorFor : Nat → γ)
      (log : Array Event) (session : Session Unit),
      let limited := (opt.withObjective (.limited limit reason f)).batch generatorFor ⟨0, log⟩
      let unlimited :=
        (opt.withObjective (.ofFunction fun p => .ok (f p))).batch generatorFor session
      ((∃ summary, limited.1 = .ok summary) ↔
        questionCount opt.config * opt.config.numRuns.toNat ≤ limit) ∧
      ∀ summary, limited.1 = .ok summary → unlimited.1 = .ok summary := by
  refine ⟨?_, ?_, ?_⟩
  · intro st
    exact ⟨Swarm.asks_step _ st, fun hok => Swarm.asks_start hok _⟩
  · intro g session recorded run schedule
    have hasks : Asks recorded.objective Session.memory schedule (recorded.runWith g) session :=
      recorded.asks_runWith hbuild g session
    refine ⟨length_flatMap_questions (recorded.scatter_stage hbuild session g) _ _, ?_, ?_⟩
    · intro r hr
      exact Objective.asked_of_survey_recorded (hasks.survey_of_ok hr)
    · intro e he
      exact Objective.exists_of_survey_recorded_eq_error (hasks.survey_of_error he)
  · intro limit reason f generatorFor log session limited unlimited
    exact ⟨opt.exists_batch_limited_iff hbuild limit reason f generatorFor log,
      fun summary hok => opt.batch_limited_eq_ok hbuild hok session⟩

/-- Two particles and one step, twice, with an objective that gives out after seven questions. -/
def shortWinded : Optimizer Nat where
  objective := .limited 7 (fun _ _ => "no value") Point.x
  name := "short-winded"
  config := { populationSize := 2, maxIterations := 1, numRuns := 2, bounds := .square (-4) 4 }
  valid := rfl

def shortWindedWords : List UInt64 :=
  [0x4000000000000000, 0, 0x8000000000000000, 0x8000000000000000, 0xe000000000000000]

def shortWindedRun : Except SearchError RunResult × Session (Nat × Array Point) :=
  (shortWinded.withObjective shortWinded.objective.recorded).runWith
    (Generator.ofWords shortWindedWords) ⟨(0, #[]), #[]⟩

theorem shortWindedRun_fails : shortWindedRun.1 = .error (.objectiveFailed "no value") := by
  decide +kernel

theorem length_asked_shortWindedRun : shortWindedRun.2.memory.2.toList.length = 8 := by
  decide +kernel

/-- The first run fails in the pass of its step, at the eighth of twelve questions. -/
theorem shortWinded_asks :
    (∃ front last rest, shortWindedRun.2.memory.2.toList = front ++ [last] ∧ front.length = 7 ∧
      (front ++ last :: rest).length = 12) ∧
    ∀ limit : Nat, (∃ summary, ((shortWinded.withObjective
        (.limited limit (fun _ _ => "no value") Point.x)).runMany (fun _ => 0) ⟨0, #[]⟩).1 =
          .ok summary) ↔ 24 ≤ limit := by
  have hbuild : Sampler.build shortWinded.config.bounds shortWinded.config.sampling =
      .ok (.splitFromZero (.square (-4) 4)) := rfl
  obtain ⟨-, hrun, hbudget⟩ := runWith_asks (γ := Generator) hbuild
  obtain ⟨hlength, -, hfails⟩ := hrun (Generator.ofWords shortWindedWords) ⟨(0, #[]), #[]⟩
  obtain ⟨front, last, rest, m, reason, hschedule, hasked, -⟩ := hfails _ shortWindedRun_fails
  have hcount := length_asked_shortWindedRun
  unfold shortWindedRun at hcount ⊢
  rw [List.nil_append] at hasked
  refine ⟨⟨front, last, rest, hasked, ?_, ?_⟩, ?_⟩
  · rw [hasked, List.length_append] at hcount
    exact Nat.succ_inj.mp hcount
  · rw [← hschedule, hlength]
    rfl
  · intro limit
    exact (hbudget limit _ Point.x _ #[] ⟨(), #[]⟩).1

end ParticleSwarm.Optimizer
