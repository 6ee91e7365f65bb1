import ParticleSwarm.Proofs.Rounds
import ParticleSwarm.Proofs.Run.Course

/-!
# One run after the other

The steps of a run are rounds, each with its note, and so are the runs of a batch.  A batch that
succeeds has the results of its runs, each in the session that the runs in front of it have left
behind; a batch that fails does so in one of its runs, behind others that have succeeded.
-/

namespace ParticleSwarm.Optimizer

open Attempt

variable {σ γ : Type} [WordSource γ]

/-! ### Steps -/

section Steps

variable {o : Objective σ} {st : Stage σ γ}

theorem stageAfter_eq_afterRounds (o : Objective σ) (first : Nat) (st : Stage σ γ) (n : Nat) :
    stageAfter o first st n = afterRounds (recordedStep o) first st n := by
  induction n with
  | zero => rfl
  | succ n ih => rw [stageAfter, ih, afterRounds]

theorem iterate_eq_rounds (o : Objective σ) (count first : Nat) (h : History) :
    (iterate o count first h : Course σ γ History) = do
      let costs ← rounds (recordedStep o) count first
      return costs.foldl History.observe h := by
  induction count generalizing first h with
  | zero => rfl
  | succ count ih =>
    rw [iterate_succ, rounds]
    simp only [ih, bind_assoc, pure_bind, List.foldl_cons]

/-- Steps that fail end at the first that does. -/
theorem iterate_eq_error {count first : Nat} {h : History} {e : SearchError}
    (herror : (iterate o count first h st).1 = .error e) :
    ∃ t < count, (∀ k < t, (Swarm.step o (stageAfter o first st k)).1 = .ok ()) ∧
      (Swarm.step o (stageAfter o first st t)).1 = .error e ∧
      (iterate o count first h st).2 = (Swarm.step o (stageAfter o first st t)).2 := by
  rw [iterate_eq_rounds] at herror ⊢
  have hrounds : (rounds (recordedStep o) count first st).1 = .error e := by
    rcases bind_fst_eq_error.mp herror with hrounds | ⟨costs, -, hpure⟩
    · exact hrounds
    · cases hpure
  obtain ⟨costs, hlt, hgive, hfails, hend⟩ := rounds_eq_error hrounds
  have hstep : (Swarm.step o (stageAfter o first st costs.length)).1 = .error e := by
    rw [← stageAfter_eq_afterRounds] at hfails
    rcases bind_fst_eq_error.mp hfails with hstep | ⟨-, -, hnote⟩
    · exact hstep
    · cases hnote
  refine ⟨costs.length, hlt, ?_, hstep, ?_⟩
  · intro k hk
    have hround := hgive k hk
    rw [← stageAfter_eq_afterRounds] at hround
    exact (recordedStep_eq_ok hround).1
  · rw [bind_of_error hrounds, hend, afterRounds, ← stageAfter_eq_afterRounds, recordedStep,
      bind_of_error hstep]

end Steps

/-! ### Runs -/

section Runs

variable {opt : Optimizer σ} {generatorFor : Nat → γ} {session : Session σ}

def recordedRun (opt : Optimizer σ) (generatorFor : Nat → γ) (number : Nat) :
    Trial σ RunResult := do
  let run ← opt.runWith (generatorFor number)
  Trial.note (.runFinished number run.best.point run.best.fitness)
  return run

theorem runs_eq_rounds (opt : Optimizer σ) (generatorFor : Nat → γ) (count first : Nat) :
    opt.runs generatorFor count first = rounds (opt.recordedRun generatorFor) count first := by
  induction count generalizing first with
  | zero => rfl
  | succ count ih => simp only [runs, rounds, recordedRun, ih, bind_assoc, pure_bind]

theorem recordedRun_of_ok {number : Nat} {r : RunResult}
    (h : (opt.runWith (generatorFor number) session).1 = .ok r) :
    opt.recordedRun generatorFor number session =
      (.ok r, (opt.runWith (generatorFor number) session).2.note
        (.runFinished number r.best.point r.best.fitness)) := by
  rw [recordedRun, bind_of_ok h]
  rfl

theorem recordedRun_of_error {number : Nat} {e : SearchError}
    (h : (opt.runWith (generatorFor number) session).1 = .error e) :
    opt.recordedRun generatorFor number session =
      (.error e, (opt.runWith (generatorFor number) session).2) := bind_of_error h

theorem recordedRun_fst (opt : Optimizer σ) (generatorFor : Nat → γ) (number : Nat)
    (session : Session σ) :
    (opt.recordedRun generatorFor number session).1 =
      (opt.runWith (generatorFor number) session).1 := by
  rcases h : (opt.runWith (generatorFor number) session).1 with e | r
  · rw [recordedRun_of_error h]
  · rw [recordedRun_of_ok h]

def opened (opt : Optimizer σ) (session : Session σ) : Session σ :=
  session.note (.batchStarted opt.name opt.config.numRuns opt.config.populationSize
    opt.config.maxIterations)

def sessionBefore (opt : Optimizer σ) (generatorFor : Nat → γ) (session : Session σ) (k : Nat) :
    Session σ :=
  afterRounds (opt.recordedRun generatorFor) 0 (opt.opened session) k

/-- Run number `k` of a batch, in the session that the runs in front of it leave behind. -/
def runOf (opt : Optimizer σ) (generatorFor : Nat → γ) (session : Session σ) (k : Nat) :
    Except SearchError RunResult × Session σ :=
  opt.runWith (generatorFor k) (opt.sessionBefore generatorFor session k)

theorem sessionBefore_succ_of_ok {k : Nat} {r : RunResult}
    (h : (opt.runOf generatorFor session k).1 = .ok r) :
    opt.sessionBefore generatorFor session (k + 1) =
      (opt.runOf generatorFor session k).2.note
        (.runFinished k r.best.point r.best.fitness) := by
  rw [sessionBefore, afterRounds, Nat.zero_add]
  exact congrArg Prod.snd (recordedRun_of_ok h)

/-- A batch is its rounds between the first note and the summary. -/
theorem batch_eq_bind (opt : Optimizer σ) (generatorFor : Nat → γ) (session : Session σ) :
    opt.batch generatorFor session =
      (rounds (opt.recordedRun generatorFor) opt.config.numRuns.toNat 0 >>= fun runs =>
        pure (⟨opt.name, runs⟩ : Summary)) (opt.opened session) := by
  rw [← runs_eq_rounds]
  exact bind_of_ok rfl

/-- A batch that succeeds has the results of its runs. -/
theorem batch_eq_ok {summary : Summary} (h : (opt.batch generatorFor session).1 = .ok summary) :
    summary.objectiveName = opt.name ∧ summary.runs.length = opt.config.numRuns.toNat ∧
      (∀ k (hk : k < summary.runs.length),
        (opt.runOf generatorFor session k).1 = .ok summary.runs[k]) ∧
      (opt.batch generatorFor session).2 =
        opt.sessionBefore generatorFor session summary.runs.length := by
  rw [batch_eq_bind] at h ⊢
  obtain ⟨runs, hruns, h⟩ := bind_fst_eq_ok.mp h
  cases h
  obtain ⟨hlength, hgive, hend⟩ := rounds_eq_ok hruns
  refine ⟨rfl, hlength, ?_, ?_⟩
  · intro k hk
    have hround := hgive k hk
    rw [recordedRun_fst, Nat.zero_add] at hround
    exact hround
  · rw [bind_of_ok hruns, hlength]
    exact hend

/-- A batch that fails does so in one of its runs. -/
theorem batch_eq_error {e : SearchError} (h : (opt.batch generatorFor session).1 = .error e) :
    ∃ earlier : List RunResult, earlier.length < opt.config.numRuns.toNat ∧
      (∀ k (hk : k < earlier.length),
        (opt.runOf generatorFor session k).1 = .ok earlier[k]) ∧
      (opt.runOf generatorFor session earlier.length).1 = .error e ∧
      (opt.batch generatorFor session).2 = (opt.runOf generatorFor session earlier.length).2 := by
  rw [batch_eq_bind] at h ⊢
  have hrounds : (rounds (opt.recordedRun generatorFor) opt.config.numRuns.toNat 0
      (opt.opened session)).1 = .error e := by
    rcases bind_fst_eq_error.mp h with hrounds | ⟨runs, -, hpure⟩
    · exact hrounds
    · cases hpure
  obtain ⟨earlier, hlt, hgive, hfails, hend⟩ := rounds_eq_error hrounds
  rw [recordedRun_fst, Nat.zero_add] at hfails
  refine ⟨earlier, hlt, ?_, hfails, ?_⟩
  · intro k hk
    have hround := hgive k hk
    rw [recordedRun_fst, Nat.zero_add] at hround
    exact hround
  · rw [bind_of_error hrounds, hend, afterRounds, Nat.zero_add, recordedRun_of_error hfails]
    rfl

end Runs

end ParticleSwarm.Optimizer
