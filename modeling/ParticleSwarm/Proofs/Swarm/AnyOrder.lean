import ParticleSwarm.Optimizer
import ParticleSwarm.Proofs.Swarm.Consistency

/-!
# Operations in any order

A swarm may go through its operations in any order, and each of them may stop half way when the
objective fails.  Under an objective that follows a function `f` of the point the swarm stays
consistent all the same; between two starts neither its leader nor any remembered point gets
worse; and every scan that comes to its end leaves it settled.
-/

namespace ParticleSwarm

open Fitness

/-! ### What every operation keeps -/

/-- A consistent swarm is led to a consistent one that is nowhere worse. -/
def Stage.Keeps {σ γ : Type} (f : Point → Float) (st st' : Stage σ γ) : Prop :=
  st.swarm.Consistent f → st'.swarm.Consistent f ∧ st.swarm.Descends f st'.swarm

namespace Stage.Keeps

variable {σ γ : Type} {f : Point → Float}

theorem refl (st : Stage σ γ) : st.Keeps f st := fun h => ⟨h, h.descends_self⟩

theorem trans {a b c : Stage σ γ} (hab : a.Keeps f b) (hbc : b.Keeps f c) : a.Keeps f c := by
  intro h
  obtain ⟨hb, hdescends⟩ := hab h
  obtain ⟨hc, hdescends'⟩ := hbc hb
  exact ⟨hc, hdescends.trans hdescends'⟩

theorem of_eq {st st' : Stage σ γ} (hleader : st'.swarm.leader = st.swarm.leader)
    (hbests : st'.swarm.bests = st.swarm.bests) : st.Keeps f st' := by
  intro h
  refine ⟨h.of_eq hleader hbests, ?_⟩
  refine ⟨?_, ?_⟩
  · rw [hleader]
    exact h.sound.isRank.le_self
  · rw [hbests]
    exact h.descends_self.bests

end Stage.Keeps

section Keeping

variable {σ γ : Type} {o : Objective σ} {f : Point → Float} {st : Stage σ γ}

theorem Swarm.leads_confine_keeps :
    Attempt.Leads (Stage.Keeps f) (Course.change Swarm.confine : Course σ γ Unit) :=
  fun _ => .of_eq (leader_confine _) (bests_confine _)

theorem Swarm.leads_evaluate_keeps (hf : o.Follows f) :
    Attempt.Leads (Stage.Keeps f) (evaluate o : Course σ γ Unit) :=
  fun st h => ⟨h.of_improves rfl (improves_evaluate hf st),
    h.descends_of_improves rfl (improves_evaluate hf st)⟩

theorem Swarm.leads_refresh_keeps (hf : o.Follows f) :
    Attempt.Leads (Stage.Keeps f) (refresh o : Course σ γ Bool) :=
  fun _ h => ⟨h.refresh hf, h.descends_refresh hf⟩

theorem Swarm.leads_pass_keeps (hf : o.Follows f) :
    Attempt.Leads (Stage.Keeps f) (pass o : Course σ γ Unit) :=
  leads_pass Stage.Keeps.refl Stage.Keeps.trans leads_confine_keeps (leads_evaluate_keeps hf)
    (leads_refresh_keeps hf)

/-- A consistent swarm is settled by a pass that comes to its end. -/
theorem Swarm.Consistent.settled_pass (h : st.swarm.Consistent f) (hf : o.Follows f)
    (hok : (pass o st).1 = .ok ()) (hne : (pass o st).2.swarm.bests ≠ []) :
    (pass o st).2.swarm.Settled f := by
  obtain ⟨st₁, changed, hevaluate, hrefresh⟩ := exists_of_pass_eq_ok hok
  have hconfined := (leads_confine_keeps (f := f) st h).1
  have hevaluated := (leads_evaluate_keeps hf _ hconfined).1
  rw [Course.change_apply, hevaluate] at hevaluated
  have hsettled := hevaluated.settled_refresh hf (congrArg Prod.fst hrefresh)
  rw [hrefresh] at hsettled
  exact hsettled hne

variable [WordSource γ]

theorem Swarm.leads_step_keeps (hf : o.Follows f) :
    Attempt.Leads (Stage.Keeps f) (step o : Course σ γ Unit) :=
  leads_step Stage.Keeps.refl Stage.Keeps.trans leads_confine_keeps (leads_evaluate_keeps hf)
    (leads_refresh_keeps hf) (fun _ => .of_eq (leader_accelerate _ _) (bests_accelerate _ _))
    fun _ => .of_eq (leader_advance _) (bests_advance _)

/-- Every operation but a start keeps what is known, whether it succeeds or fails. -/
theorem Operation.leads_perform_keeps (hf : o.Follows f) {op : Operation} (hop : op ≠ .start) :
    Attempt.Leads (Stage.Keeps f) (op.perform o : Course σ γ (Option Bool)) :=
  op.leads_perform Stage.Keeps.refl Stage.Keeps.trans Swarm.leads_confine_keeps
    (Swarm.leads_evaluate_keeps hf) (Swarm.leads_refresh_keeps hf)
    (fun _ => .of_eq (Swarm.leader_accelerate _ _) (Swarm.bests_accelerate _ _))
    (fun _ => .of_eq (Swarm.leader_advance _) (Swarm.bests_advance _)) fun h => absurd h hop

/-! ### Starting over -/

theorem Swarm.Fresh.consistent {s : Swarm} (h : s.Fresh) : s.Consistent f := by
  refine ⟨Or.inl h.leader, fun hne => Or.inl ?_⟩
  obtain ⟨b, hb⟩ := List.exists_mem_of_ne_nil _ hne
  have horigin := h.eq_origin_of_mem_bests hb
  rw [h.leader]
  change Point.origin ∈ s.bests
  rwa [← horigin]

/-- Whatever the swarm was before, and however far a start gets, the swarm is consistent then. -/
theorem Swarm.consistent_start (hf : o.Follows f) (st : Stage σ γ) :
    (start o st).2.swarm.Consistent f := by
  have hscattered : (scatter st).2.swarm.Consistent f := (fresh_scatter st).consistent
  rcases hscatter : (scatter st).1 with e | ⟨⟨⟩⟩
  · rw [start, Attempt.bind_of_error hscatter]
    exact hscattered
  · rw [start, Attempt.bind_of_ok hscatter]
    exact (leads_pass_keeps hf _ hscattered).1

/-- What an operation preserves, also when it fails. -/
theorem Operation.consistent_perform (hf : o.Follows f) (op : Operation)
    (h : st.swarm.Consistent f) : (op.perform o st).2.swarm.Consistent f := by
  by_cases hop : op = .start
  · rw [hop, perform, Attempt.bind_pure_apply]
    exact Swarm.consistent_start hf st
  · exact (leads_perform_keeps hf hop st h).1

/-! ### After a success -/

theorem Swarm.Settled.of_eq {s s' : Swarm} (h : s.Settled f) (hleader : s'.leader = s.leader)
    (hbests : s'.bests = s.bests) : s'.Settled f := by
  obtain ⟨hle, heq, hmem⟩ := h
  refine ⟨?_, ?_, ?_⟩
  · rw [hleader, hbests]
    exact hle
  · rw [hleader]
    exact heq
  · rw [hleader, hbests]
    exact hmem

theorem Swarm.settled_start (hf : o.Follows f) (hok : (start o st).1 = .ok ())
    (hne : (start o st).2.swarm.bests ≠ []) : (start o st).2.swarm.Settled f := by
  obtain ⟨-, hpass⟩ := start_eq_pass hok
  rw [hpass] at hok hne ⊢
  exact (fresh_scatter st).consistent.settled_pass hf hok hne

theorem Swarm.Consistent.settled_step (h : st.swarm.Consistent f) (hf : o.Follows f)
    (hok : (step o st).1 = .ok ()) (hne : (step o st).2.swarm.bests ≠ []) :
    (step o st).2.swarm.Settled f := by
  have hpass := pass_eq_ok_of_step hok
  have hbests : (step o st).2.swarm.bests = (pass o st).2.swarm.bests := by
    rw [step_of_pass hpass]
    exact (bests_advance _).trans (bests_accelerate _ _)
  rw [hbests] at hne
  refine (h.settled_pass hf hpass hne).of_eq ?_ hbests
  rw [step_of_pass hpass]
  rfl

/-- The operations that end with a scan settle the swarm when they succeed. -/
theorem Operation.settled_perform (hf : o.Follows f) {op : Operation}
    (hop : op ∈ [start, step, refresh]) (h : st.swarm.Consistent f) {told : Option Bool}
    (hok : (op.perform o st).1 = .ok told) (hne : (op.perform o st).2.swarm.particles ≠ []) :
    (op.perform o st).2.swarm.Settled f := by
  rw [Ne, ← Swarm.bests_eq_nil_iff] at hne
  simp only [List.mem_cons, List.not_mem_nil, or_false] at hop
  rcases hop with rfl | rfl | rfl
  · obtain ⟨⟨⟩, hstart, -⟩ := Attempt.bind_fst_eq_ok.mp hok
    rw [perform, Attempt.bind_pure_apply] at hne ⊢
    exact Swarm.settled_start hf hstart hne
  · obtain ⟨⟨⟩, hstep, -⟩ := Attempt.bind_fst_eq_ok.mp hok
    rw [perform, Attempt.bind_pure_apply] at hne ⊢
    exact h.settled_step hf hstep hne
  · obtain ⟨changed, hrefresh, -⟩ := Attempt.bind_fst_eq_ok.mp hok
    rw [perform, Attempt.bind_pure_apply] at hne ⊢
    exact h.settled_refresh hf hrefresh hne

/-! ### Sequences of operations -/

/-- Carries out operations one after the other.  After one that fails the next one goes on with
    what it has left behind. -/
def Operation.performAll (o : Objective σ) (ops : List Operation) (st : Stage σ γ) : Stage σ γ :=
  ops.foldl (fun st op => (op.perform o st).2) st

theorem Operation.consistent_performAll (hf : o.Follows f) (ops : List Operation)
    (h : st.swarm.Consistent f) : (performAll o ops st).swarm.Consistent f := by
  induction ops generalizing st with
  | nil => exact h
  | cons op ops ih => exact ih (op.consistent_perform hf h)

theorem Operation.keeps_performAll (hf : o.Follows f) {ops : List Operation}
    (hops : .start ∉ ops) (st : Stage σ γ) : st.Keeps f (performAll o ops st) := by
  induction ops generalizing st with
  | nil => exact .refl st
  | cons op ops ih =>
    have hop : op ≠ .start := (List.ne_of_not_mem_cons hops).symm
    exact (leads_perform_keeps hf hop st).trans (ih (List.not_mem_of_not_mem_cons hops) _)

theorem Operation.sameSetup_performAll (o : Objective σ) (ops : List Operation)
    (st : Stage σ γ) : st.SameSetup (performAll o ops st) := by
  induction ops generalizing st with
  | nil => exact .refl st
  | cons op ops ih => exact (leads_perform_sameSetup o op st).trans (ih _)

theorem Swarm.consistent_ofConfig (c : Config) : (ofConfig c).Consistent f :=
  ⟨Or.inl rfl, fun hne => absurd rfl hne⟩

/-- **The leader agrees with the objective, whatever is done.**  After any operations on the swarm
    of a configuration, failed ones included, the leader is the fresh one or has the finite value
    of its point; until the next start neither the leader nor a remembered point gets worse; and a
    start, step or scan that succeeds settles a swarm that has particles. -/
theorem Operation.leader_agrees_performAll (hf : o.Follows f) (c : Config) (session : Session σ)
    (g : γ) (ops : List Operation) :
    let st := performAll o ops (Optimizer.stage c session g)
    (st.swarm.leader = .none ∨
      st.swarm.leader.fitness.isFinite = true ∧ st.swarm.leader.fitness = f st.swarm.leader.point) ∧
    (∀ later, .start ∉ later → st.swarm.Descends f (performAll o later st).swarm) ∧
    ∀ op ∈ [start, step, refresh], ∀ told, (op.perform o st).1 = .ok told →
      (op.perform o st).2.swarm.particles ≠ [] → (op.perform o st).2.swarm.Settled f := by
  intro st
  have hconsistent : st.swarm.Consistent f :=
    consistent_performAll hf ops (Swarm.consistent_ofConfig c)
  refine ⟨hconsistent.sound, ?_, ?_⟩
  · intro later hlater
    exact (keeps_performAll hf hlater st hconsistent).2
  · intro op hop told hok hne
    exact settled_perform hf hop hconsistent hok hne

end Keeping

def Objective.failingAt (question : Nat) (f : Point → Float) : Objective Nat where
  answer asked p := (if asked = question then .error "no value" else .ok (f p), asked + 1)

theorem Objective.follows_failingAt (question : Nat) (f : Point → Float) :
    (failingAt question f).Follows f := by
  intro m p v h
  change (if m = question then _ else _) = _ at h
  split at h
  · cases h
  · cases h
    rfl

/-- Of two particles only the first one is reviewed before the start fails.  It has found a better
    point than the fresh leader, which the next step takes up. -/
theorem Operation.leader_agrees_after_failure :
    let o := Objective.failingAt 3 Point.x
    let c : Config := { populationSize := 2, bounds := .square (-1) 3, sampling := .uniform }
    let st := performAll o [start] (Optimizer.stage c ⟨0, #[]⟩ (Generator.ofWords [0, 5]))
    (o.Follows Point.x ∧ st.swarm.leader = .none ∧ st.swarm.bests = [⟨-1, -1⟩, .origin]) ∧
    (start ∉ [step, refresh] ∧ (step.perform o st).1 = .ok none ∧
      (step.perform o st).2.swarm.particles ≠ []) ∧
    st.swarm.Descends Point.x (performAll o [step, refresh] st).swarm ∧
    (step.perform o st).2.swarm.Settled Point.x := by
  intro o c st
  have hf : o.Follows Point.x := Objective.follows_failingAt 3 Point.x
  have hok : (step.perform o st).1 = .ok none := Attempt.eq_ok_of_toOption (by decide +kernel)
  have hne : (step.perform o st).2.swarm.particles ≠ [] := by decide +kernel
  obtain ⟨-, hdescends, hsettled⟩ :=
    leader_agrees_performAll hf c ⟨0, #[]⟩ (Generator.ofWords [0, 5]) [start]
  exact ⟨⟨hf, by decide +kernel, by decide +kernel⟩, ⟨by decide, hok, hne⟩,
    hdescends [step, refresh] (by decide), hsettled step (by decide) none hok hne⟩

end ParticleSwarm
