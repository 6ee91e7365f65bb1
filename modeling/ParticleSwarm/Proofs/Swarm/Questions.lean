import ParticleSwarm.Proofs.Survey
import ParticleSwarm.Proofs.Swarm.Operations

/-!
# The questions of a pass

A pass asks about each particle in turn, at its confined position and at the point that it remembers
so far, and then once more about each particle, at the point that it remembers by then.  What the
objective answers decides which points these are, but not how many they are nor in which order the
particles come.
-/

namespace ParticleSwarm

open Attempt

variable {σ γ : Type} {o : Objective σ}

/-- A survey that begins in a session. -/
theorem Objective.survey_cons_memory (o : Objective σ) (p : Point) (ps : List Point)
    (s : Session σ) :
    o.survey (p :: ps) s.memory =
      match o.cost p s with
      | (.error e, s) => (.error e, s.memory)
      | (.ok _, s) => o.survey ps s.memory := by
  rw [survey, cost]
  rcases o.answer s.memory p with ⟨_ | _, m⟩ <;> rfl

theorem Objective.asks_cost (o : Objective σ) (p : Point) (s : Session σ) :
    Asks o Session.memory [p] (o.cost p) s := by
  rw [Asks, survey_cons_memory]
  rcases o.cost p s with ⟨_ | _, s'⟩ <;> rfl

namespace Particle

def questions (p : Particle) : List Point := [p.position, p.personalBest]

theorem length_flatMap_questions (ps : List Particle) :
    (ps.flatMap questions).length = 2 * ps.length := by
  simp [List.length_flatMap, questions, Nat.mul_comm]

theorem asks_report (o : Objective σ) (p : Particle) (fitness : Float) (s : Session σ) :
    Asks o Session.memory [] (p.report fitness) s := by
  unfold report
  cases fitness.isFinite with
  | false => exact .silent rfl rfl
  | true => exact .silent rfl rfl

theorem asks_review (o : Objective σ) (p : Particle) (s : Session σ) :
    Asks o Session.memory p.questions (p.review o) s := by
  apply (o.asks_cost p.position s).bind
  intro fitness _
  apply (p.asks_report o fitness _).silent_bind
  intro _ _
  apply Asks.bind_silent
  · exact (o.asks_cost p.personalBest _).bind_silent fun _ _ => .silent rfl rfl
  · exact fun _ _ => .silent rfl rfl

/-- Outcome and memory after reviews are those of their questions, so nothing else is asked. -/
theorem survey_reviewAll (o : Objective σ) (ps : List Particle) (s : Session σ) :
    ((reviewAll o ps s).1.1, (reviewAll o ps s).2.memory) =
      o.survey (ps.flatMap questions) s.memory := by
  induction ps generalizing s with
  | nil => rfl
  | cons p ps ih =>
    rw [List.flatMap_cons, Objective.survey_append, ← asks_review o p s, reviewAll]
    rcases p.review o s with ⟨e | p', s'⟩
    · rfl
    · exact ih s'

end Particle

theorem Leader.survey_scan (o : Objective σ) (l : Leader) (changed : Bool) (ps : List Particle)
    (s : Session σ) :
    ((scan o l changed ps s).1.1.map (fun _ => ()), (scan o l changed ps s).2.memory) =
      o.survey (ps.map Particle.personalBest) s.memory := by
  induction ps generalizing l changed s with
  | nil => rfl
  | cons p ps ih =>
    rw [List.map_cons, Objective.survey_cons_memory, scan, Particle.evaluateBest]
    rcases o.cost p.personalBest s with ⟨e | v, s'⟩
    · rfl
    · exact ih _ _ s'

/-! ### Passes -/

def Stage.memory (st : Stage σ γ) : σ := st.session.memory

namespace Swarm

/-- The points at which a pass asks, in order, as long as the objective does not fail. -/
def questions (o : Objective σ) (st : Stage σ γ) : List Point :=
  st.swarm.particles.flatMap (fun p => [st.swarm.bounds.clamp p.position, p.personalBest]) ++
    (pass o st).2.swarm.bests

/-- The scan asks at the points that are remembered after the reviews. -/
theorem questions_eq (o : Objective σ) (st : Stage σ γ) :
    questions o st =
      st.swarm.confine.particles.flatMap Particle.questions ++
        (evaluate o { st with swarm := st.swarm.confine }).2.swarm.bests := by
  have hreviews : st.swarm.confine.particles.flatMap Particle.questions =
      st.swarm.particles.flatMap fun p => [st.swarm.bounds.clamp p.position, p.personalBest] :=
    List.flatMap_map ..
  have hscan : (pass o st).2.swarm.bests =
      (evaluate o { st with swarm := st.swarm.confine }).2.swarm.bests :=
    congrArg (List.map Particle.personalBest) (particles_pass o st)
  rw [questions, hreviews, hscan]

theorem asks_evaluate (o : Objective σ) (st : Stage σ γ) :
    Asks o Stage.memory (st.swarm.particles.flatMap Particle.questions) (evaluate o) st := by
  have hunit (outcome : Except SearchError Unit) : outcome.map (fun _ => ()) = outcome := by
    cases outcome <;> rfl
  rw [Asks, hunit]
  exact Particle.survey_reviewAll o st.swarm.particles st.session

theorem asks_refresh (o : Objective σ) (st : Stage σ γ) :
    Asks o Stage.memory st.swarm.bests (refresh o) st := Leader.survey_scan o _ _ _ _

/-- The second part of a pass is reached when no review fails, and changes nothing that a particle
    remembers. -/
theorem asks_pass (o : Objective σ) (st : Stage σ γ) :
    Asks o Stage.memory (questions o st) (pass o) st := by
  have hpass : Asks o Stage.memory (questions o st)
      (evaluate o >>= fun _ => refresh o >>= fun _ => pure ())
      { st with swarm := st.swarm.confine } := by
    rw [questions_eq]
    apply (asks_evaluate o { st with swarm := st.swarm.confine }).bind
    intro _ _
    exact (asks_refresh o _).bind_silent fun _ _ => .silent rfl rfl
  rw [Asks, pass_eq_bind]
  exact hpass

section Steps

variable [WordSource γ]

theorem asks_step (o : Objective σ) (st : Stage σ γ) :
    Asks o Stage.memory (questions o st) (step o) st :=
  (asks_pass o st).bind_silent fun _ _ => .silent rfl rfl

theorem memory_scatter (st : Stage σ γ) : (scatter st).2.memory = st.memory := by
  rw [scatter_apply]
  cases Sampler.build st.swarm.bounds st.swarm.sampling <;> rfl

/-- A start asks what the pass over its new particles asks. -/
theorem asks_start {st : Stage σ γ} (hok : (scatter st).1 = .ok ()) (o : Objective σ) :
    Asks o Stage.memory (questions o (scatter st).2) (start o) st :=
  (Asks.silent hok (memory_scatter st)).silent_bind fun _ _ => asks_pass o _

end Steps

end Swarm

/-! ### How many there are -/

def Stage.SameCount (st st' : Stage σ γ) : Prop :=
  st'.swarm.particles.length = st.swarm.particles.length

theorem Stage.SameCount.refl (st : Stage σ γ) : st.SameCount st := rfl

theorem Stage.SameCount.trans {a b c : Stage σ γ} (hab : a.SameCount b) (hbc : b.SameCount c) :
    a.SameCount c := Eq.trans hbc hab

namespace Swarm

theorem leads_confine_sameCount :
    Leads Stage.SameCount (Course.change confine : Course σ γ Unit) :=
  fun _ => List.length_map ..

theorem leads_evaluate_sameCount (o : Objective σ) :
    Leads Stage.SameCount (evaluate o : Course σ γ Unit) :=
  fun st => Particle.length_reviewAll o st.swarm.particles st.session

theorem leads_pass_sameCount (o : Objective σ) :
    Leads Stage.SameCount (pass o : Course σ γ Unit) :=
  leads_pass Stage.SameCount.refl Stage.SameCount.trans leads_confine_sameCount
    (leads_evaluate_sameCount o) fun _ => rfl

/-- Three questions for each particle, whatever the answers. -/
theorem length_questions (o : Objective σ) (st : Stage σ γ) :
    (questions o st).length = 3 * st.swarm.particles.length := by
  have hbests : (pass o st).2.swarm.bests.length = st.swarm.particles.length :=
    (List.length_map ..).trans (leads_pass_sameCount o st)
  rw [questions, List.length_append, hbests, List.length_flatMap]
  simp
  omega

variable [WordSource γ]

theorem leads_accelerate_sameCount :
    Leads Stage.SameCount (Course.draw accelerate : Course σ γ Unit) := by
  intro st
  rw [Course.draw_apply, accelerate_apply]
  exact List.length_mapIdx

theorem leads_step_sameCount (o : Objective σ) :
    Leads Stage.SameCount (step o : Course σ γ Unit) :=
  leads_step Stage.SameCount.refl Stage.SameCount.trans leads_confine_sameCount
    (leads_evaluate_sameCount o) (fun _ => rfl) leads_accelerate_sameCount
    fun _ => List.length_map ..

/-- The number of particles after a start that has got its sampler, also when it fails later. -/
theorem length_particles_start_of_built {st : Stage σ γ} {sampler : Sampler}
    (hbuild : Sampler.build st.swarm.bounds st.swarm.sampling = .ok sampler) (o : Objective σ) :
    (start o st).2.swarm.particles.length = st.swarm.populationSize.toNat := by
  have hok : (scatter st).1 = .ok () := by
    rw [scatter_apply, hbuild]
    rfl
  rw [start, bind_of_ok hok, ← length_particles_scatter hok]
  exact leads_pass_sameCount o _

end Swarm

/-- Only a start changes how many particles there are. -/
theorem Operation.leads_perform_sameCount [WordSource γ] (o : Objective σ) {op : Operation}
    (hop : op ≠ .start) : Leads Stage.SameCount (op.perform o : Course σ γ (Option Bool)) :=
  op.leads_perform Stage.SameCount.refl Stage.SameCount.trans Swarm.leads_confine_sameCount
    (Swarm.leads_evaluate_sameCount o) (fun _ => rfl) Swarm.leads_accelerate_sameCount
    (fun _ => List.length_map ..) fun h => absurd h hop

end ParticleSwarm
