import Mathlib.Data.List.Induction
import ParticleSwarm.Proofs.Run.Schedule
import ParticleSwarm.Proofs.Run.Succession
import ParticleSwarm.Proofs.Swarm.Warnings

/-!
# The log of a batch

A batch notes that it starts.  Each of its runs then reports the warnings of its passes, with a note
on each step behind the warnings of its pass, and at last what it has found.  A batch that fails has
reported all this for the runs in front of the failure and for the passes in front of the failure,
and the warnings of its last pass up to the question that has no answer; nothing is reported behind
that.
-/

namespace ParticleSwarm.Optimizer

open Attempt

variable {σ γ : Type} [WordSource γ]

/-! ### Runs -/

section Course

variable {o : Objective σ} {st : Stage σ γ}

/-- The stage in which a pass of a run begins.  The first pass, with index zero, belongs to the
    start, the others to the steps. -/
def passStage (o : Objective σ) (st : Stage σ γ) : Nat → Stage σ γ
  | 0 => (Swarm.scatter st).2
  | t + 1 => stageAfter o 0 (Swarm.start o st).2 t

def costAfter (o : Objective σ) (st : Stage σ γ) (t : Nat) : Float :=
  (stageAfter o 0 (Swarm.start o st).2 t).swarm.leader.fitness

/-- What a pass of a run reports, and the note that follows if it belongs to a step. -/
def passEvents (o : Objective σ) (st : Stage σ γ) (t : Nat) : List Event :=
  Swarm.warnings o (passStage o st t) ++
    match t with
    | 0 => []
    | i + 1 => [.iteration i (costAfter o st (i + 1))]

theorem events_recordedStep {number : Nat} (h : (Swarm.step o st).1 = .ok ()) :
    (recordedStep o number st).2.events = st.events ++ (Swarm.warnings o st ++
      [.iteration number (recordedStep o number st).2.swarm.leader.fitness]) := by
  rw [← List.append_assoc, ← Swarm.events_step, recordedStep_of_ok h]
  exact Array.toList_push

/-- A step reports its warnings and then its number with the fitness of the leader. -/
theorem events_stageAfter {n : Nat}
    (hsteps : ∀ k < n, (Swarm.step o (stageAfter o 0 st k)).1 = .ok ()) :
    (stageAfter o 0 st n).events = st.events ++ (List.range n).flatMap fun k =>
      Swarm.warnings o (stageAfter o 0 st k) ++
        [.iteration k (stageAfter o 0 st (k + 1)).swarm.leader.fitness] := by
  simp only [stageAfter_eq_afterRounds] at hsteps ⊢
  apply record_afterRounds
  intro k hk
  rw [afterRounds, Nat.zero_add]
  exact events_recordedStep (hsteps k hk)

/-- A run whose start and first steps succeed has reported their passes. -/
theorem events_stageAfter_start (hscatter : (Swarm.scatter st).1 = .ok ()) {n : Nat}
    (hsteps : ∀ k < n, (Swarm.step o (stageAfter o 0 (Swarm.start o st).2 k)).1 = .ok ()) :
    (stageAfter o 0 (Swarm.start o st).2 n).events =
      st.events ++ (List.range (n + 1)).flatMap (passEvents o st) := by
  rw [events_stageAfter hsteps, Swarm.events_start hscatter, List.range_succ_eq_map,
    List.flatMap_cons, List.flatMap_map, passEvents, List.append_nil, List.append_assoc]
  rfl

/-- Behind its start a run is its steps. -/
theorem course_of_start (hstart : (Swarm.start o st).1 = .ok ()) (n : Nat) :
    course o n st =
      (iterate o n 0 (History.empty.observe (costAfter o st 0)) >>= fun history => do
        return ⟨(← get).swarm.leader, history⟩) (Swarm.start o st).2 := by
  rw [course, bind_of_ok hstart]
  exact bind_of_ok rfl

theorem events_course_of_ok {n : Nat} {r : RunResult} (h : (course o n st).1 = .ok r) :
    (course o n st).2.events = st.events ++ (List.range (n + 1)).flatMap (passEvents o st) := by
  obtain ⟨⟨⟩, hstart, -⟩ := bind_fst_eq_ok.mp h
  rw [course_of_start hstart] at h ⊢
  obtain ⟨history, hiterate, -⟩ := bind_fst_eq_ok.mp h
  obtain ⟨hsteps, hend, -⟩ := iterate_eq_ok hiterate
  rw [bind_of_ok hiterate, hend]
  exact events_stageAfter_start (Swarm.start_eq_pass hstart).1 hsteps

/-- A run that fails has got no particles, or it fails in one of its passes. -/
theorem events_course_of_error {n : Nat} {e : SearchError} (h : (course o n st).1 = .error e) :
    (Swarm.scatter st).1 = .error e ∧ (course o n st).2.events = st.events ∨
      ∃ t ≤ n, (∀ k < t, (Swarm.pass o (passStage o st k)).1 = .ok ()) ∧
        (Swarm.pass o (passStage o st t)).1 = .error e ∧
        (course o n st).2.events = st.events ++
          ((List.range t).flatMap (passEvents o st) ++ Swarm.warnings o (passStage o st t)) := by
  rcases hscatter : (Swarm.scatter st).1 with e' | ⟨⟨⟩⟩
  · have hstart : Swarm.start o st = (.error e', (Swarm.scatter st).2) := bind_of_error hscatter
    rw [course, bind_of_error (congrArg Prod.fst hstart), hstart] at h ⊢
    cases h
    exact .inl ⟨rfl, Swarm.events_scatter st⟩
  right
  have hpass : Swarm.start o st = Swarm.pass o (passStage o st 0) := bind_of_ok hscatter
  rcases hstart : (Swarm.start o st).1 with e' | ⟨⟨⟩⟩
  · rw [course, bind_of_error hstart] at h ⊢
    cases h
    refine ⟨0, Nat.zero_le n, fun k hk => absurd hk (Nat.not_lt_zero k), ?_, ?_⟩
    · rw [← hpass, hstart]
    · exact Swarm.events_start hscatter o
  · rw [course_of_start hstart] at h ⊢
    rcases bind_fst_eq_error.mp h with hiterate | ⟨_, -, hpure⟩
    · obtain ⟨t, ht, hsteps, hfails, hend⟩ := iterate_eq_error hiterate
      rw [bind_of_error hiterate, hend]
      have hlast : Swarm.step o (stageAfter o 0 (Swarm.start o st).2 t) =
          Swarm.pass o (passStage o st (t + 1)) :=
        Swarm.step_eq_pass_of_not_ok (by simp [hfails])
      refine ⟨t + 1, ht, ?_, ?_, ?_⟩
      · intro k hk
        cases k with
        | zero => rw [← hpass, hstart]
        | succ k => exact Swarm.pass_eq_ok_of_step (hsteps k (Nat.lt_of_succ_lt_succ hk))
      · rw [← hlast, hfails]
      · rw [Swarm.events_step, events_stageAfter_start hscatter hsteps, List.append_assoc]
        rfl
    · cases hpure

end Course

/-! ### Batches -/

section Batch

variable (opt : Optimizer σ) (generatorFor : Nat → γ) (session : Session σ)

def runStage (k : Nat) : Stage σ γ :=
  stage opt.config (opt.sessionBefore generatorFor session k) (generatorFor k)

/-- What the batch has reported before its first run. -/
def openingEvents : List Event :=
  session.log.toList ++ [.batchStarted opt.name opt.config.numRuns opt.config.populationSize
    opt.config.maxIterations]

/-- What runs with these results report, the first of them being the first one of the batch. -/
def runEvents (results : List RunResult) : List Event :=
  results.zipIdx.flatMap fun (run, k) =>
    (List.range (opt.config.maxIterations.toNat + 1)).flatMap
        (passEvents opt.objective (opt.runStage generatorFor session k)) ++
      [.runFinished k run.best.point run.best.fitness]

/-- The first runs of the batch succeed with these results. -/
def Finished (results : List RunResult) : Prop :=
  ∀ k run, results[k]? = some run → (opt.runOf generatorFor session k).1 = .ok run

variable {opt generatorFor session}

theorem log_runOf_of_ok {k : Nat} {run : RunResult}
    (h : (opt.runOf generatorFor session k).1 = .ok run) :
    (opt.runOf generatorFor session k).2.log.toList =
      (opt.sessionBefore generatorFor session k).log.toList ++
        (List.range (opt.config.maxIterations.toNat + 1)).flatMap
          (passEvents opt.objective (opt.runStage generatorFor session k)) :=
  events_course_of_ok h

theorem finished_of_forall {results : List RunResult}
    (h : ∀ k (hk : k < results.length), (opt.runOf generatorFor session k).1 = .ok results[k]) :
    opt.Finished generatorFor session results := by
  intro k run hrun
  obtain ⟨hk, rfl⟩ := List.getElem?_eq_some_iff.mp hrun
  exact h k hk

/-- Runs that succeed report one behind the other. -/
theorem Finished.log_sessionBefore {results : List RunResult}
    (h : opt.Finished generatorFor session results) :
    (opt.sessionBefore generatorFor session results.length).log.toList =
      opt.openingEvents session ++ opt.runEvents generatorFor session results := by
  induction results using List.reverseRecOn with
  | nil => simp [sessionBefore, afterRounds, opened, openingEvents, runEvents]
  | append_singleton results run ih =>
    have hearlier : opt.Finished generatorFor session results := by
      intro k run' hrun'
      have hk : k < results.length := (List.getElem?_eq_some_iff.mp hrun').1
      exact h k run' ((List.getElem?_append_left hk).trans hrun')
    have hrun := h results.length run List.getElem?_concat_length
    rw [List.length_append, List.length_singleton, sessionBefore_succ_of_ok hrun,
      Session.log_note, Array.toList_push, log_runOf_of_ok hrun, ih hearlier]
    simp [runEvents, List.zipIdx_append]

/-- The history of a run holds the costs behind its passes. -/
theorem Finished.history {results : List RunResult}
    (h : opt.Finished generatorFor session results) {k : Nat} {run : RunResult}
    (hrun : results[k]? = some run) :
    run.history.toList = (List.range (opt.config.maxIterations.toNat + 1)).map
      (costAfter opt.objective (opt.runStage generatorFor session k)) :=
  (course_eq_ok (h k run hrun)).2.2.2

/-- **The log of a batch tells what has happened.**  A batch that succeeds has reported its start and
    then what its runs have to report, one behind the other: the warnings of each pass, the cost
    behind it if it belongs to a step, which is an entry of the history, and at last the best point.
    The warnings of a pass belong to the answers that the positions of its particles get, in order.
    A batch that fails has reported this for its earlier runs and for the earlier passes of the run
    that fails, and of the pass that fails the warnings about the positions that were answered
    before the failure. -/
theorem batch_reports (opt : Optimizer σ) (generatorFor : Nat → γ) (session : Session σ) :
    let outcome := opt.batch generatorFor session
    let o := opt.objective
    let steps := opt.config.maxIterations.toNat
    (∀ (st : Stage σ γ) (j : Nat) (p : Particle), st.swarm.confine.particles[j]? = some p →
      (Swarm.questions o st)[2 * j]? = some p.position) ∧
    (∀ results, opt.Finished generatorFor session results → ∀ k run, results[k]? = some run →
      run.history.toList =
        (List.range (steps + 1)).map (costAfter o (opt.runStage generatorFor session k))) ∧
    (∀ summary, outcome.1 = .ok summary →
      summary.runs.length = opt.config.numRuns.toNat ∧
      opt.Finished generatorFor session summary.runs ∧
      outcome.2.log.toList =
        opt.openingEvents session ++ opt.runEvents generatorFor session summary.runs) ∧
    ∀ e, outcome.1 = .error e → ∃ earlier rest,
      earlier.length < opt.config.numRuns.toNat ∧
      opt.Finished generatorFor session earlier ∧
      outcome.2.log.toList =
        opt.openingEvents session ++ opt.runEvents generatorFor session earlier ++ rest ∧
      let st := opt.runStage generatorFor session earlier.length
      ((Swarm.scatter st).1 = .error e ∧ rest = [] ∨
        ∃ t ≤ steps, (∀ k < t, (Swarm.pass o (passStage o st k)).1 = .ok ()) ∧
          (∃ question reason, e = .objectiveFailed reason ∧
            o.firstFailure (Swarm.questions o (passStage o st t)) (passStage o st t).memory =
              some (question, reason)) ∧
          rest = (List.range t).flatMap (passEvents o st) ++
            Swarm.warnings o (passStage o st t)) := by
  intro outcome o steps
  refine ⟨fun st j p => Swarm.getElem?_questions o, fun results h k run => h.history, ?_, ?_⟩
  · intro summary hok
    obtain ⟨-, hlength, hruns, hend⟩ := batch_eq_ok hok
    have hfinished := finished_of_forall hruns
    refine ⟨hlength, hfinished, ?_⟩
    rw [← hfinished.log_sessionBefore, ← hend]
  · intro e herror
    obtain ⟨earlier, hlt, hruns, hfails, hend⟩ := batch_eq_error herror
    have hfinished := finished_of_forall hruns
    have hlog (rest : List Event)
        (hrest : (opt.runOf generatorFor session earlier.length).2.log.toList =
          (opt.sessionBefore generatorFor session earlier.length).log.toList ++ rest) :
        outcome.2.log.toList =
          opt.openingEvents session ++ opt.runEvents generatorFor session earlier ++ rest := by
      rw [← hfinished.log_sessionBefore, ← hrest]
      exact congrArg (·.log.toList) hend
    rcases events_course_of_error hfails with ⟨hscatter, hevents⟩ | ⟨t, ht, hpasses, hpass, hevents⟩
    · exact ⟨earlier, [], hlt, hfinished, hlog [] (hevents.trans (List.append_nil _).symm),
        .inl ⟨hscatter, rfl⟩⟩
    · refine ⟨earlier, _, hlt, hfinished, hlog _ hevents, .inr ⟨t, ht, hpasses, ?_, rfl⟩⟩
      have hsurvey := (Swarm.asks_pass o _).survey_of_error hpass
      obtain ⟨question, reason, hfirst, -, he⟩ :=
        Objective.exists_firstFailure_of_survey (congrArg Prod.fst hsurvey)
      exact ⟨question, reason, he, hfirst⟩

end Batch

def answering : Objective (List Answer) :=
  ⟨fun left _ => (left.headD (.error "no more answers"), left.tail)⟩

def talkative : Optimizer (List Answer) where
  objective := answering
  name := "recited answers"
  config :=
    { populationSize := 1
      maxIterations := 1
      numRuns := 2
      coefficients := ⟨0, 1, 0⟩
      bounds := .square (-8) 8 }
  valid := rfl

def terse : Optimizer (List Answer) :=
  { talkative with
    config := { talkative.config with maxIterations := 0, numRuns := 1 }
    valid := rfl }

def sameWords (_ : Nat) : Generator := .ofWords [0x4000000000000000, 0]

/-- Both runs of `talkative` report a position without a number, the first one in its step and the
    second one in its start.  The start of `terse` reports its position before it fails at the point
    that the particle remembers. -/
theorem talkative_reports :
    let nan := Float.ofBits 0x7ff8000000000000
    let told : Session (List Answer) :=
      ⟨[.ok 5, .ok 3, .ok 3, .ok nan, .ok 3, .ok 3,
        .ok nan, .ok 7, .ok 7, .ok 1, .ok 7, .ok 1], #[]⟩
    let cut : Session (List Answer) := ⟨[.ok nan, .error "no value"], #[]⟩
    let talked := talkative.batch sameWords told
    let stopped := terse.batch sameWords cut
    talked.1 =
      .ok ⟨"recited answers", [⟨⟨.origin, 3⟩, ⟨#[3, 3]⟩⟩, ⟨⟨⟨2, 2⟩, 1⟩, ⟨#[7, 1]⟩⟩]⟩ ∧
    talked.2.log.toList =
      [.batchStarted "recited answers" 2 1 1,
        .nonFinite ⟨2, 2⟩ nan, .iteration 0 3, .runFinished 0 .origin 3,
        .nonFinite ⟨2, 2⟩ nan, .iteration 0 1, .runFinished 1 ⟨2, 2⟩ 1] ∧
    stopped.1 = .error (.objectiveFailed "no value") ∧
    stopped.2.log.toList = [.batchStarted "recited answers" 1 1 0, .nonFinite ⟨2, 2⟩ nan] := by
  intro nan told cut talked stopped
  have hok : talked.1 =
      .ok ⟨"recited answers", [⟨⟨.origin, 3⟩, ⟨#[3, 3]⟩⟩, ⟨⟨⟨2, 2⟩, 1⟩, ⟨#[7, 1]⟩⟩]⟩ :=
    Attempt.eq_ok_of_toOption (by decide +kernel)
  have hfails : stopped.1 = .error (.objectiveFailed "no value") := by decide +kernel
  refine ⟨hok, ?_, hfails, ?_⟩
  · obtain ⟨-, -, hsucceeds, -⟩ := batch_reports talkative sameWords told
    obtain ⟨-, -, hlog⟩ := hsucceeds _ hok
    refine hlog.trans ?_
    decide +kernel
  · obtain ⟨-, -, -, herror⟩ := batch_reports terse sameWords cut
    obtain ⟨earlier, rest, hlt, -, hlog, hrest⟩ := herror _ hfails
    obtain rfl : earlier = [] := List.length_eq_zero_iff.mp (Nat.lt_one_iff.mp hlt)
    refine hlog.trans ?_
    rcases hrest with ⟨hscatter, -⟩ | ⟨t, ht, -, -, rfl⟩
    · have hbuild : Sampler.build terse.config.bounds terse.config.sampling =
          .ok (.splitFromZero (.square (-8) 8)) := rfl
      have hbuilt :=
        terse.scatter_stage hbuild (terse.sessionBefore sameWords cut 0) (sameWords 0)
      cases hbuilt.symm.trans hscatter
    · obtain rfl : t = 0 := Nat.le_zero.mp ht
      decide +kernel

end ParticleSwarm.Optimizer
