import ParticleSwarm.Proofs.Swarm.Questions

/-!
# What a pass reports

A pass warns of each position with a value that is not finite, in the order of the particles.  The
warnings are read off from what the objective replies to the questions of the pass: the question at
the position of a particle comes behind two questions for each particle in front of it.  A question
that has no answer ends the replies and with them the warnings, but takes none of them back.  The
points that particles remember are never warned of.
-/

namespace ParticleSwarm

open Attempt

variable {σ γ : Type} {o : Objective σ}

/-! ### Replies -/

namespace Objective

/-- What the objective replies to questions in order, up to the first one that has no answer. -/
def replies (o : Objective σ) : List Point → σ → List Answer
  | [], _ => []
  | p :: ps, m =>
    match o.answer m p with
    | (.error reason, _) => [.error reason]
    | (.ok v, m) => .ok v :: replies o ps m

/-- Questions that are answered have as many replies. -/
theorem length_replies {ps : List Point} {m m' : σ} (h : o.survey ps m = (.ok (), m')) :
    (o.replies ps m).length = ps.length := by
  induction ps generalizing m with
  | nil => rfl
  | cons p ps ih =>
    rw [survey] at h
    rw [replies]
    rcases hp : o.answer m p with ⟨reason | v, m₁⟩ <;> rw [hp] at h
    · cases h
    · exact congrArg (· + 1) (ih h)

theorem length_replies_le (o : Objective σ) (ps : List Point) (m : σ) :
    (o.replies ps m).length ≤ ps.length := by
  induction ps generalizing m with
  | nil => exact Nat.le_refl 0
  | cons p ps ih =>
    rw [replies]
    rcases o.answer m p with ⟨reason | v, m₁⟩
    · exact Nat.succ_le_succ (Nat.zero_le _)
    · exact Nat.succ_le_succ (ih m₁)

theorem replies_append_of_ok {ps : List Point} {m m' : σ} (h : o.survey ps m = (.ok (), m'))
    (qs : List Point) : o.replies (ps ++ qs) m = o.replies ps m ++ o.replies qs m' := by
  induction ps generalizing m with
  | nil =>
    cases h
    rfl
  | cons p ps ih =>
    rw [survey] at h
    rw [List.cons_append, replies, replies]
    rcases hp : o.answer m p with ⟨reason | v, m₁⟩ <;> rw [hp] at h
    · cases h
    · exact congrArg (Except.ok v :: ·) (ih h)

/-- Behind a failure nothing is asked. -/
theorem replies_append_of_error {ps : List Point} {m m' : σ} {e : SearchError}
    (h : o.survey ps m = (.error e, m')) (qs : List Point) :
    o.replies (ps ++ qs) m = o.replies ps m := by
  induction ps generalizing m with
  | nil => cases h
  | cons p ps ih =>
    rw [survey] at h
    rw [List.cons_append, replies, replies]
    rcases hp : o.answer m p with ⟨reason | v, m₁⟩
    · rfl
    · rw [hp] at h
      exact congrArg (Except.ok v :: ·) (ih h)

/-- The replies to questions do not depend on the questions behind them. -/
theorem getElem?_replies_append (o : Objective σ) {ps : List Point} (qs : List Point) (m : σ)
    {i : Nat} (hi : i < ps.length) : (o.replies (ps ++ qs) m)[i]? = (o.replies ps m)[i]? := by
  rcases h : o.survey ps m with ⟨e | ⟨⟨⟩⟩, m'⟩
  · rw [replies_append_of_error h]
  · rw [replies_append_of_ok h]
    exact List.getElem?_append_left (length_replies h ▸ hi)

end Objective

/-! ### Warnings -/

def Event.warning? (position : Point) : Answer → Option Event
  | .ok v => if v.isFinite then none else some (.nonFinite position v)
  | .error _ => none

namespace Particle

/-- The warnings about particles that are reviewed in order, when these questions are asked. -/
def warnings (o : Objective σ) (ps : List Particle) (questions : List Point) (m : σ) :
    List Event :=
  ps.zipIdx.filterMap fun (p, j) =>
    ((o.replies questions m)[2 * j]?).bind (Event.warning? p.position)

/-- Questions behind those of the reviews lead to no warning. -/
theorem warnings_append (o : Objective σ) (ps : List Particle) (qs : List Point) (m : σ) :
    warnings o ps (ps.flatMap questions ++ qs) m = warnings o ps (ps.flatMap questions) m := by
  apply List.filterMap_congr
  rintro ⟨p, j⟩ hmem
  have hj : j < ps.length := List.snd_lt_of_mem_zipIdx hmem
  have hquestion : 2 * j < (ps.flatMap questions).length := by
    rw [length_flatMap_questions]
    omega
  simp only [o.getElem?_replies_append qs m hquestion]

section Cons

variable {p : Particle} {ps : List Particle} {qs : List Point} {m m' : σ}

/-- The first two replies belong to the first particle. -/
theorem warnings_cons (o : Objective σ) (p : Particle) (ps : List Particle) (qs : List Point)
    (m : σ) :
    warnings o (p :: ps) (p.questions ++ qs) m =
      (Event.warning? p.position (o.answer m p.position).1).toList ++
        ps.zipIdx.filterMap fun (q, j) =>
          ((o.replies (p.questions ++ qs) m)[2 * j + 2]?).bind (Event.warning? q.position) := by
  have hfirst : (o.replies (p.questions ++ qs) m)[0]? = some (o.answer m p.position).1 := by
    change (o.replies (p.position :: p.personalBest :: qs) m)[0]? = _
    rw [Objective.replies]
    rcases o.answer m p.position with ⟨reason | v, m₁⟩ <;> rfl
  rw [warnings, List.zipIdx_cons, List.zipIdx_succ, List.filterMap_cons, List.filterMap_map]
  simp only [Nat.mul_zero, hfirst, Option.bind_some]
  cases Event.warning? p.position (o.answer m p.position).1 <;> rfl

theorem warnings_cons_of_ok (h : o.survey p.questions m = (.ok (), m')) :
    warnings o (p :: ps) (p.questions ++ qs) m =
      (Event.warning? p.position (o.answer m p.position).1).toList ++ warnings o ps qs m' := by
  have hlength : (o.replies p.questions m).length = 2 := Objective.length_replies h
  have hlater (j : Nat) : (o.replies (p.questions ++ qs) m)[2 * j + 2]? =
      (o.replies qs m')[2 * j]? := by
    rw [Objective.replies_append_of_ok h, List.getElem?_append_right (by omega), hlength,
      Nat.add_sub_cancel]
  rw [warnings_cons, warnings]
  simp only [hlater]

theorem warnings_cons_of_error {e : SearchError} (h : o.survey p.questions m = (.error e, m')) :
    warnings o (p :: ps) (p.questions ++ qs) m =
      (Event.warning? p.position (o.answer m p.position).1).toList := by
  have hlength : (o.replies p.questions m).length ≤ 2 := o.length_replies_le p.questions m
  have hlater (j : Nat) : (o.replies (p.questions ++ qs) m)[2 * j + 2]? = none := by
    rw [Objective.replies_append_of_error h]
    exact List.getElem?_eq_none (by omega)
  simp [warnings_cons, hlater]

end Cons

theorem log_report (p : Particle) (fitness : Float) (s : Session σ) :
    (p.report fitness s).2.log.toList =
      s.log.toList ++ (Event.warning? p.position (.ok fitness)).toList := by
  unfold report
  cases h : fitness.isFinite <;> simp [Event.warning?, h]

theorem report_fst (p : Particle) (fitness : Float) (s : Session σ) :
    (p.report fitness s).1 = .ok () := by
  unfold report
  cases fitness.isFinite <;> rfl

/-- A review warns of the position, also when the remembered point has no value then. -/
theorem log_review (o : Objective σ) (p : Particle) (s : Session σ) :
    (p.review o s).2.log.toList =
      s.log.toList ++ (Event.warning? p.position (o.answer s.memory p.position).1).toList := by
  rcases ha : o.answer s.memory p.position with ⟨reason | v, m⟩
  · have hfails : p.evaluate o s = (.error (.objectiveFailed reason), { s with memory := m }) := by
      simp [evaluate, Objective.cost, ha, Except.mapError]
    rw [review, bind_of_error (congrArg Prod.fst hfails), hfails]
    simp [Event.warning?]
  · have hanswers : p.evaluate o s = (.ok v, { s with memory := m }) := by
      simp [evaluate, Objective.cost, ha, Except.mapError]
    have hbest (s : Session σ) : ((p.updateBest o v >>= fun updated => pure updated.1) s).2.log =
        s.log := by
      simp only [updateBest, bind_pure_apply]
      rfl
    rw [review, bind_of_ok (congrArg Prod.fst hanswers), hanswers,
      bind_of_ok (p.report_fst v _), hbest, log_report]

/-- What reviews report can be read off the replies to their questions. -/
theorem log_reviewAll (o : Objective σ) (ps : List Particle) (s : Session σ) :
    (reviewAll o ps s).2.log.toList =
      s.log.toList ++ warnings o ps (ps.flatMap questions) s.memory := by
  induction ps generalizing s with
  | nil => simp [reviewAll, warnings]
  | cons p ps ih =>
    have hasks := asks_review o p s
    rw [List.flatMap_cons]
    rcases hp : (p.review o s).1 with e | p'
    · rw [reviewAll_cons_of_error hp, warnings_cons_of_error (hasks.survey_of_error hp)]
      exact log_review o p s
    · rw [reviewAll_cons_of_ok hp, warnings_cons_of_ok (hasks.survey_of_ok hp), ih, log_review,
        List.append_assoc]

end Particle

/-- Scanning for a leader reports nothing. -/
theorem Leader.log_scan (o : Objective σ) (l : Leader) (changed : Bool) (ps : List Particle)
    (s : Session σ) : (scan o l changed ps s).2.log = s.log := by
  induction ps generalizing l changed s with
  | nil => rfl
  | cons p ps ih =>
    rcases hp : (o.cost p.personalBest s).1 with e | v
    · rw [scan_cons_of_error hp]
      rfl
    · rw [scan_cons_of_ok hp, ih]
      rfl

/-! ### Passes -/

def Stage.events (st : Stage σ γ) : List Event := st.session.log.toList

namespace Swarm

/-- The warnings of a pass: particle `j`, at its confined position, is what question number `2 * j`
    is about. -/
def warnings (o : Objective σ) (st : Stage σ γ) : List Event :=
  Particle.warnings o st.swarm.confine.particles (questions o st) st.memory

/-- Question number `2 * j` of a pass is asked at the confined position of particle `j`. -/
theorem getElem?_questions (o : Objective σ) {st : Stage σ γ} {j : Nat} {p : Particle}
    (hp : st.swarm.confine.particles[j]? = some p) :
    (questions o st)[2 * j]? = some p.position := by
  have hreviews (ps : List Particle) (j : Nat) :
      (ps.flatMap Particle.questions)[2 * j]? = ps[j]?.map Particle.position := by
    induction ps generalizing j with
    | nil => rfl
    | cons q ps ih =>
      cases j with
      | zero => rfl
      | succ j => exact ih j
  have hj : j < st.swarm.confine.particles.length := (List.getElem?_eq_some_iff.mp hp).1
  have hplace : 2 * j < (st.swarm.confine.particles.flatMap Particle.questions).length := by
    rw [Particle.length_flatMap_questions]
    omega
  rw [questions_eq, List.getElem?_append_left hplace, hreviews, hp]
  rfl

/-- A pass reports its warnings and nothing else, also when it fails. -/
theorem events_pass (o : Objective σ) (st : Stage σ γ) :
    (pass o st).2.events = st.events ++ warnings o st := by
  have hevaluate : (evaluate o { st with swarm := st.swarm.confine }).2.events =
      st.events ++ warnings o st := by
    rw [warnings, questions_eq, Particle.warnings_append]
    exact Particle.log_reviewAll o _ _
  rw [← hevaluate]
  rcases hok : (evaluate o { st with swarm := st.swarm.confine }).1 with e | ⟨⟨⟩⟩
  · rw [pass_of_evaluate_error hok]
  · rw [pass_of_evaluate_ok hok]
    exact congrArg Array.toList (Leader.log_scan o _ _ _ _)

variable [WordSource γ]

/-- Drawing and moving report nothing. -/
theorem events_step (o : Objective σ) (st : Stage σ γ) :
    (step o st).2.events = st.events ++ warnings o st := by
  rw [← events_pass]
  rcases hpass : (pass o st).1 with e | ⟨⟨⟩⟩
  · rw [step, bind_of_error hpass]
  · rw [step_of_pass hpass]
    rfl

theorem events_scatter (st : Stage σ γ) : (scatter st).2.events = st.events := by
  rw [scatter_apply]
  cases Sampler.build st.swarm.bounds st.swarm.sampling <;> rfl

theorem events_start {st : Stage σ γ} (hok : (scatter st).1 = .ok ()) (o : Objective σ) :
    (start o st).2.events = st.events ++ warnings o (scatter st).2 := by
  rw [start, bind_of_ok hok, events_pass, events_scatter]

end Swarm

end ParticleSwarm
