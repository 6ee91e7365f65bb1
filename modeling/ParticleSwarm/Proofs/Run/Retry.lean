import ParticleSwarm.Proofs.Swarm.AnyOrder
import ParticleSwarm.Proofs.Swarm.Passing

/-!
# A step that fails can be tried again

A step that fails is not undone: positions stay clamped, some of the remembered points are new, and
the leader may be as well.  Yet trying again is safe.  Nothing is drawn before the pass of a step has
succeeded, and however often a pass stops half way, the next one still comes to the same swarm.  So
the first attempt that succeeds ends where a single step with an objective that never fails ends.
-/

namespace ParticleSwarm.Swarm

variable {σ γ : Type} {o : Objective σ} {f : Point → Float} {st st' : Stage σ γ}

/-- A stage on the way to the end of a pass that began at `st`. -/
structure Underway (f : Point → Float) (st st' : Stage σ γ) : Prop where
  passed : st'.swarm.passed f = st.swarm.passed f
  setup : st.SameSetup st'
  consistent : st'.swarm.Consistent f
  generator : st'.generator = st.generator

/-- Another pass, failed or not, leads on toward the same end. -/
theorem Underway.pass (hf : o.Follows f) (hb : st.swarm.bounds.Good) (h : Underway f st st') :
    Underway f st (pass o st').2 := by
  rw [← h.setup.bounds] at hb
  constructor
  · rw [(halfway_pass hf st').passed_eq hb h.consistent.sound, h.passed]
  · exact h.setup.trans (leads_pass_sameSetup o st')
  · exact (leads_pass_keeps hf st' h.consistent).1
  · rw [generator_pass, h.generator]

variable [WordSource γ]

/-- The stage after a number of attempts at a step.  Each of them goes on from where the one before
    has stopped. -/
def attempts (o : Objective σ) (st : Stage σ γ) : Nat → Stage σ γ
  | 0 => st
  | n + 1 => (step o (attempts o st n)).2

/-- Attempts that all fail never leave the way, by induction on their number. -/
theorem underway_attempts (hf : o.Follows f) (hb : st.swarm.bounds.Good)
    (hst : st.swarm.Consistent f) {m : Nat}
    (hfail : ∀ k < m, (step o (attempts o st k)).1 ≠ .ok ()) :
    Underway f st (attempts o st m) := by
  induction m with
  | zero => exact ⟨rfl, rfl, hst, rfl⟩
  | succ m ih =>
    have hm := ih fun k hk => hfail k (Nat.lt_succ_of_lt hk)
    rw [attempts, step_eq_pass_of_not_ok (hfail m m.lt_succ_self)]
    exact hm.pass hf hb

def singleStep (f : Point → Float) (st : Stage σ γ) : Except SearchError Unit × Stage Unit γ :=
  step (.ofFunction fun p => .ok (f p)) ⟨st.swarm, ⟨(), #[]⟩, st.generator⟩

theorem singleStep_fst (f : Point → Float) (st : Stage σ γ) : (singleStep f st).1 = .ok () := by
  have hanswers : (Objective.ofFunction fun p => .ok (f p)).AnswersBy fun p => .ok (f p) :=
    fun _ _ => rfl
  rw [singleStep, step_of_pass]
  apply (pass_eq_ok_iff hanswers _).mpr
  intro p _
  exact ⟨⟨_, rfl⟩, ⟨_, rfl⟩⟩

/-- Operations have led to the stage after a start on good bounds.  Any of them may have failed. -/
def Reached (o : Objective σ) (st : Stage σ γ) : Prop :=
  ∃ initial : Stage σ γ, ∃ later, initial.swarm.bounds.validate = .ok () ∧
    st = Operation.performAll o later (start o initial).2

theorem Reached.good_bounds (h : Reached o st) : st.swarm.bounds.Good := by
  obtain ⟨initial, later, hvalid, rfl⟩ := h
  have hstart := leads_start_sameSetup o initial
  rw [(hstart.trans (Operation.sameSetup_performAll o later _)).bounds]
  exact Bounds.validate_eq_ok_iff.mp hvalid

/-- **A step that fails can be tried again.**  From a stage that operations have led to, take any
    number of attempts at a step that fail.  The first attempt that succeeds after them ends with
    the swarm and the generator of a single step with an objective that never fails. -/
theorem attempts_eq_singleStep (hf : o.Follows f) (hst : Reached o st) {m : Nat}
    (hfail : ∀ k < m, (step o (attempts o st k)).1 ≠ .ok ())
    (hok : (step o (attempts o st m)).1 = .ok ()) :
    (singleStep f st).1 = .ok () ∧
      (attempts o st (m + 1)).swarm = (singleStep f st).2.swarm ∧
      (attempts o st (m + 1)).generator = (singleStep f st).2.generator := by
  have hconsistent : st.swarm.Consistent f := by
    obtain ⟨initial, later, -, rfl⟩ := hst
    exact Operation.consistent_performAll hf later (consistent_start hf initial)
  have hunderway := underway_attempts hf hst.good_bounds hconsistent hfail
  have hsingle := singleStep_fst f st
  have hfollows : (Objective.ofFunction fun p => .ok (f p)).Follows f :=
    fun _ _ _ h => (Except.ok.inj h).symm
  obtain ⟨hswarm, hgenerator⟩ := step_of_ok hf hok
  obtain ⟨hswarm', hgenerator'⟩ := step_of_ok hfollows hsingle
  rw [hunderway.passed, hunderway.generator] at hswarm hgenerator
  exact ⟨hsingle, hswarm.trans hswarm'.symm, hgenerator.trans hgenerator'.symm⟩

/-- Two particles, of which the first one overshoots the second one.  The step that scores it fails
    in the scan, when it has already become the leader, and then succeeds. -/
theorem overshot_attempts :
    let half : UInt64 := 0x8000000000000000
    let o := Objective.failingAt 17 Point.x
    let c : Config :=
      { populationSize := 2, coefficients := ⟨0, 0, 3⟩, bounds := .square (-4) 4 }
    let initial := Optimizer.stage c ⟨0, #[]⟩
      (Generator.ofWords ([half, 0, half, 0] ++ List.replicate 12 half))
    let st := Operation.performAll o [.step] (start o initial).2
    (o.Follows Point.x ∧ Reached o st ∧ (∀ k < 1, (step o (attempts o st k)).1 ≠ .ok ()) ∧
      (step o (attempts o st 1)).1 = .ok ()) ∧
    (st.swarm.leader = ⟨⟨-2, -2⟩, -2⟩ ∧ (attempts o st 1).swarm.leader = ⟨⟨-4, -4⟩, -4⟩) ∧
    (singleStep Point.x st).1 = .ok () ∧
      (attempts o st 2).swarm = (singleStep Point.x st).2.swarm ∧
      (attempts o st 2).generator = (singleStep Point.x st).2.generator := by
  intro half o c initial st
  have hf : o.Follows Point.x := Objective.follows_failingAt 17 Point.x
  have hvalid : initial.swarm.bounds.validate = .ok () :=
    Attempt.eq_ok_of_toOption (by decide +kernel)
  have hst : Reached o st := ⟨initial, [.step], hvalid, rfl⟩
  have hfail : ∀ k < 1, (step o (attempts o st k)).1 ≠ .ok () := by decide +kernel
  have hok : (step o (attempts o st 1)).1 = .ok () :=
    Attempt.eq_ok_of_toOption (by decide +kernel)
  exact ⟨⟨hf, hst, hfail, hok⟩, by decide +kernel, attempts_eq_singleStep hf hst hfail hok⟩

end ParticleSwarm.Swarm
