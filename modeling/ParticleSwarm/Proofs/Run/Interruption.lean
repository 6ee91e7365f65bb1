import ParticleSwarm.Proofs.Run.Failure
import ParticleSwarm.Proofs.Swarm.Passing
import ParticleSwarm.Proofs.Swarm.Questions

/-!
# Where a step stops

A step stops at the first question that the objective does not answer, and that question tells what
has happened by then.  Of `n` particles, number `j` is reviewed with the questions `2 * j` and
`2 * j + 1`, and scanned with question `2 * n + j`.  A review that fails leaves its particle and those
behind it alone, and the leader as well; a scan that fails leaves the leader that it has got so far.
Nothing has been drawn or moved in either case.

What the particles in front of the failure remember is what they would after a pass that goes on.
There is no such pass with an objective that fails, so it is a pass with one that `Completes` it.
-/

namespace ParticleSwarm

open Attempt

variable {σ γ : Type} {o o' : Objective σ}

/-! ### Objectives without failures -/

namespace Objective

/-- The other objective answers everywhere, and says the same wherever this one has an answer. -/
structure Completes (o' o : Objective σ) : Prop where
  neverFails : o'.NeverFails
  agrees : ∀ m p v, (o.answer m p).1 = .ok v → o'.answer m p = o.answer m p

/-- The objective with the values of a function where it has none of its own. -/
def mended (o : Objective σ) (f : Point → Float) : Objective σ where
  answer m p :=
    let reply := o.answer m p
    (.ok (reply.1.toOption.getD (f p)), reply.2)

theorem completes_mended (o : Objective σ) (f : Point → Float) : (o.mended f).Completes o := by
  constructor
  · exact fun m p => ⟨_, rfl⟩
  · intro m p v h
    refine Prod.ext ?_ rfl
    simp [mended, h, Except.toOption]

theorem Completes.agrees_cost (h : o'.Completes o) (p : Point) : Agrees (o.cost p) (o'.cost p) := by
  intro s v hv
  rw [cost, cost, h.agrees _ _ _ (cost_fst_eq_ok.mp hv)]

end Objective

/-! ### Reviews up to a failure -/

namespace Particle

def motion (p : Particle) : Point × Point := (p.position, p.velocity)

/-- Reviews change what is remembered and nothing else. -/
theorem map_motion_reviewAll (o : Objective σ) (ps : List Particle) (s : Session σ) :
    (reviewAll o ps s).1.2.map motion = ps.map motion := by
  have hsame : List.Forall₂ (· = ·) (ps.map motion) ((reviewAll o ps s).1.2.map motion) := by
    rw [List.forall₂_map_left_iff, List.forall₂_map_right_iff]
    refine (forall₂_reviewAll o ps s).imp ?_
    rintro p p' (rfl | ⟨rfl, -⟩) <;> rfl
  rw [List.forall₂_eq_eq_eq] at hsame
  exact hsame.symm

/-- As long as the objective has answers, the mended one has the same. -/
theorem agrees_review (h : o'.Completes o) (p : Particle) : Agrees (p.review o) (p.review o') :=
  (h.agrees_cost p.position).bind fun _ => (Agrees.refl _).bind fun _ =>
    ((h.agrees_cost p.personalBest).bind fun _ => .refl _).bind fun _ => .refl _

/-- Reviews of which the first ones succeed. -/
theorem reviewAll_append_of_ok {front : List Particle} {s : Session σ}
    (hok : (reviewAll o front s).1.1 = .ok ()) (rest : List Particle) :
    reviewAll o (front ++ rest) s =
      let result := reviewAll o rest (reviewAll o front s).2
      ((result.1.1, (reviewAll o front s).1.2 ++ result.1.2), result.2) := by
  induction front generalizing s with
  | nil => rfl
  | cons p front ih =>
    rcases hp : (p.review o s).1 with e | p'
    · rw [reviewAll_cons_of_error hp] at hok
      cases hok
    · rw [reviewAll_cons_of_ok hp] at hok
      rw [List.cons_append, reviewAll_cons_of_ok hp, reviewAll_cons_of_ok hp, ih hok]
      rfl

theorem reviewAll_eq_of_completes (h : o'.Completes o) {ps : List Particle} {s : Session σ}
    (hok : (reviewAll o ps s).1.1 = .ok ()) : reviewAll o' ps s = reviewAll o ps s := by
  induction ps generalizing s with
  | nil => rfl
  | cons p ps ih =>
    rcases hp : (p.review o s).1 with e | p'
    · rw [reviewAll_cons_of_error hp] at hok
      cases hok
    · have hsame := agrees_review h p s p' hp
      have hp' : (p.review o' s).1 = .ok p' := by rw [hsame, hp]
      rw [reviewAll_cons_of_ok hp] at hok ⊢
      rw [reviewAll_cons_of_ok hp', hsame, ih hok]

/-- The particles in front of one that cannot be reviewed come out as in full reviews. -/
theorem reviewAll_eq_take_append (h : o'.Completes o) {front : List Particle} {p : Particle}
    {s : Session σ} {e : SearchError} (hfront : (reviewAll o front s).1.1 = .ok ())
    (hp : (p.review o (reviewAll o front s).2).1 = .error e) (rest : List Particle) :
    (reviewAll o (front ++ p :: rest) s).1.2 =
      (reviewAll o' (front ++ p :: rest) s).1.2.take front.length ++ p :: rest := by
  have hsame := reviewAll_eq_of_completes h hfront
  have hfront' : (reviewAll o' front s).1.1 = .ok () := by rw [hsame, hfront]
  rw [reviewAll_append_of_ok hfront, reviewAll_cons_of_error hp, reviewAll_append_of_ok hfront',
    hsame, List.take_left' (length_reviewAll o front s)]

/-- The question at which the reviews have stopped. -/
theorem firstFailure_reviewAll {front : List Particle} {p : Particle} {s : Session σ}
    {e : SearchError} (hfront : (reviewAll o front s).1.1 = .ok ())
    (hp : (p.review o (reviewAll o front s).2).1 = .error e) (rest : List Particle) :
    ∃ i < 2, ∃ reason,
      o.firstFailure ((front ++ p :: rest).flatMap questions) s.memory =
          some (2 * front.length + i, reason) ∧
        e = .objectiveFailed reason := by
  have hanswered := survey_reviewAll o front s
  rw [hfront] at hanswered
  have hsurvey := (asks_review o p (reviewAll o front s).2).survey_of_error hp
  rw [List.flatMap_append, List.flatMap_cons, ← length_flatMap_questions front]
  exact Objective.exists_firstFailure_append hanswered.symm (congrArg Prod.fst hsurvey) _

end Particle

/-! ### Scans up to a failure -/

namespace Leader

/-- The question at which a scan has stopped. -/
theorem firstFailure_scan {l : Leader} {changed told : Bool} {front : List Particle}
    {p : Particle} {s : Session σ} {e : SearchError}
    (hfront : (scan o l changed front s).1.1 = .ok told)
    (hp : (o.cost p.personalBest (scan o l changed front s).2).1 = .error e)
    (rest : List Particle) :
    ∃ reason,
      o.firstFailure ((front ++ p :: rest).map Particle.personalBest) s.memory =
          some (front.length, reason) ∧
        e = .objectiveFailed reason := by
  have hanswered := survey_scan o l changed front s
  rw [hfront] at hanswered
  have hsurvey := (o.asks_cost p.personalBest (scan o l changed front s).2).survey_of_error hp
  obtain ⟨i, hi, reason, hfirst, he⟩ := Objective.exists_firstFailure_append hanswered.symm
    (congrArg Prod.fst hsurvey) (rest.map Particle.personalBest)
  obtain rfl : i = 0 := Nat.lt_one_iff.mp hi
  rw [List.length_map] at hfirst
  rw [List.map_append, List.map_cons]
  exact ⟨reason, hfirst, he⟩

end Leader

/-! ### Steps -/

namespace Swarm

def take (j : Nat) (s : Swarm) : Swarm := { s with particles := s.particles.take j }

/-- What a step leaves behind when the review of particle number `j` fails. -/
structure StoppedReviewing (o : Objective σ) (st : Stage σ γ) (j : Nat) (s : Swarm) : Prop where
  leader : s.leader = st.swarm.leader
  bests : ∀ o' : Objective σ, o'.Completes o →
    let full := evaluate o' { st with swarm := st.swarm.confine }
    full.1 = .ok () ∧ s.bests = full.2.swarm.bests.take j ++ st.swarm.bests.drop j

/-- What a step leaves behind when the scan fails at particle number `j`. -/
structure StoppedScanning (o : Objective σ) (st : Stage σ γ) (j : Nat) (s : Swarm) : Prop where
  evaluated : (evaluate o { st with swarm := st.swarm.confine }).1 = .ok ()
  bests : s.bests = (evaluate o { st with swarm := st.swarm.confine }).2.swarm.bests
  leader :
    let full := (evaluate o { st with swarm := st.swarm.confine }).2
    let scanned := refresh o { full with swarm := full.swarm.take j }
    (∃ changed, scanned.1 = .ok changed) ∧ s.leader = scanned.2.swarm.leader

variable {st : Stage σ γ} {e : SearchError}

theorem evaluate_eq_ok_of_completes (h : o'.Completes o) (st : Stage σ γ) :
    (evaluate o' st).1 = .ok () := by
  rcases he : (evaluate o' st).1 with e | ⟨⟨⟩⟩
  · exact absurd (failsOnly_evaluate o' st e he) (h.neverFails.not_failsWith e)
  · rfl

/-- A review that fails does so at one of its two questions.  The particles in front of it remember
    what they would if nothing had failed, it and the others what they did before. -/
theorem exists_of_evaluate_eq_error (h : (evaluate o st).1 = .error e) :
    ∃ j < st.swarm.particles.length, ∃ i < 2, ∃ reason,
      o.firstFailure (st.swarm.particles.flatMap Particle.questions) st.memory =
          some (2 * j + i, reason) ∧
        e = .objectiveFailed reason ∧
        ∀ o' : Objective σ, o'.Completes o →
          (evaluate o st).2.swarm.bests =
            (evaluate o' st).2.swarm.bests.take j ++ st.swarm.bests.drop j := by
  obtain ⟨front, p, rest, hps, hfront, hp⟩ := Particle.exists_of_reviewAll_eq_error h
  obtain ⟨i, hi, reason, hfirst, he⟩ := Particle.firstFailure_reviewAll hfront hp rest
  rw [← hps] at hfirst
  refine ⟨front.length, by simp [hps], i, hi, reason, hfirst, he, ?_⟩
  intro o' ho'
  have hreviewed := Particle.reviewAll_eq_take_append ho' hfront hp rest
  have hrest : st.swarm.bests.drop front.length = (p :: rest).map Particle.personalBest := by
    rw [bests, hps, List.map_append, List.drop_left' (List.length_map ..)]
  rw [← hps] at hreviewed
  rw [hrest]
  refine (congrArg (List.map Particle.personalBest) hreviewed).trans ?_
  rw [List.map_append, List.map_take]
  rfl

theorem exists_of_refresh_eq_error (h : (refresh o st).1 = .error e) :
    ∃ j < st.swarm.particles.length, ∃ reason,
      o.firstFailure st.swarm.bests st.memory = some (j, reason) ∧
        e = .objectiveFailed reason ∧
        let scanned := refresh o { st with swarm := st.swarm.take j }
        (∃ changed, scanned.1 = .ok changed) ∧
          (refresh o st).2.swarm.leader = scanned.2.swarm.leader := by
  obtain ⟨front, p, rest, changed, hps, hfront, hp, hleader⟩ := Leader.exists_of_scan_eq_error h
  obtain ⟨reason, hfirst, he⟩ := Leader.firstFailure_scan hfront hp rest
  rw [← hps] at hfirst
  refine ⟨front.length, by simp [hps], reason, hfirst, he, ?_⟩
  have htake : st.swarm.particles.take front.length = front := by rw [hps, List.take_left]
  intro scanned
  have hscanned : scanned = refresh o { st with swarm := { st.swarm with particles := front } } := by
    rw [← htake]
    rfl
  rw [hscanned]
  exact ⟨⟨changed, hfront⟩, hleader⟩

theorem stoppedReviewing_of_evaluate {full : Stage σ γ}
    (h : evaluate o { st with swarm := st.swarm.confine } = (.error e, full)) :
    ∃ j < st.swarm.particles.length, ∃ i < 2, ∃ reason,
      o.firstFailure (questions o st) st.memory = some (2 * j + i, reason) ∧
        e = .objectiveFailed reason ∧ StoppedReviewing o st j full.swarm := by
  obtain ⟨j, hj, i, hi, reason, hfirst, he, hbests⟩ :=
    exists_of_evaluate_eq_error (congrArg Prod.fst h)
  have hsize : st.swarm.confine.particles.length = st.swarm.particles.length :=
    List.length_map ..
  rw [hsize] at hj
  rw [bests_confine, h] at hbests
  refine ⟨j, hj, i, hi, reason, ?_, he, ?_, ?_⟩
  · rw [questions_eq]
    exact Objective.firstFailure_append_of_some hfirst _
  · exact (congrArg (·.2.swarm.leader) h).symm
  · exact fun o' ho' => ⟨evaluate_eq_ok_of_completes ho' _, hbests o' ho'⟩

theorem stoppedScanning_of_refresh {full last : Stage σ γ}
    (hevaluate : evaluate o { st with swarm := st.swarm.confine } = (.ok (), full))
    (hrefresh : refresh o full = (.error e, last)) :
    ∃ j < st.swarm.particles.length, ∃ reason,
      o.firstFailure (questions o st) st.memory =
          some (2 * st.swarm.particles.length + j, reason) ∧
        e = .objectiveFailed reason ∧ StoppedScanning o st j last.swarm := by
  let confined : Stage σ γ := { st with swarm := st.swarm.confine }
  obtain ⟨j, hj, reason, hfirst, he, hscanned⟩ :=
    exists_of_refresh_eq_error (congrArg Prod.fst hrefresh)
  have hsize : confined.swarm.particles.length = st.swarm.particles.length := List.length_map ..
  have hcount : confined.SameCount (evaluate o confined).2 := leads_evaluate_sameCount o confined
  have hsurvey := (asks_evaluate o confined).survey_of_ok (congrArg Prod.fst hevaluate)
  rw [hevaluate] at hcount hsurvey
  rw [hrefresh] at hscanned
  refine ⟨j, (Eq.trans hcount hsize) ▸ hj, reason, ?_, he, ?_⟩
  · have hshift := Objective.firstFailure_append_of_survey hsurvey full.swarm.bests
    rw [hfirst, Particle.length_flatMap_questions, hsize] at hshift
    rw [questions_eq, hevaluate]
    exact hshift
  · constructor
    · rw [hevaluate]
    · rw [hevaluate]
      exact congrArg (·.2.swarm.bests) hrefresh.symm
    · rw [hevaluate]
      exact hscanned

variable [WordSource γ]

/-- **A step that fails stops at a definite place.**  It has drawn nothing, and positions and
    velocities are as they were brought within bounds.  Its error is that of the first question
    without an answer.  When this question belongs to the review of particle `j`, the particles in
    front remember what they do after a full pass, the others what they did before, and the leader
    is the old one.  When it belongs to the scan at particle `j`, all particles remember what they do
    after a full pass, and the leader is the one after a scan of the first `j` particles. -/
theorem step_stops_at_failure (h : (step o st).1 = .error e) :
    let stopped := (step o st).2
    let size := st.swarm.particles.length
    stopped.generator = st.generator ∧ stopped.swarm.setup = st.swarm.setup ∧
    stopped.swarm.particles.map Particle.motion =
      st.swarm.confine.particles.map Particle.motion ∧
    ∃ k reason, o.firstFailure (questions o st) st.memory = some (k, reason) ∧
      e = .objectiveFailed reason ∧
      ∃ j < size,
        (k = 2 * j ∨ k = 2 * j + 1) ∧ StoppedReviewing o st j stopped.swarm ∨
        k = 2 * size + j ∧ StoppedScanning o st j stopped.swarm := by
  intro stopped size
  have hstep : step o st = pass o st := step_eq_pass_of_not_ok (by simp [h])
  have hstopped : stopped = (pass o st).2 := congrArg Prod.snd hstep
  rw [hstep] at h
  rw [hstopped]
  refine ⟨generator_pass o st, leads_pass_sameSetup o st, ?_, ?_⟩
  · rw [particles_pass]
    exact Particle.map_motion_reviewAll ..
  rcases evaluate_or_refresh_of_pass_eq_error h with hevaluate | ⟨full, hevaluate, hrefresh⟩
  · obtain ⟨j, hj, i, hi, reason, hfirst, he, hstop⟩ := stoppedReviewing_of_evaluate hevaluate
    exact ⟨2 * j + i, reason, hfirst, he, j, hj, .inl ⟨by omega, hstop⟩⟩
  · obtain ⟨j, hj, reason, hfirst, he, hstop⟩ := stoppedScanning_of_refresh hevaluate hrefresh
    exact ⟨2 * size + j, reason, hfirst, he, j, hj, .inr ⟨rfl, hstop⟩⟩

/-- Three particles, all of them in better places than they remember.  When the second review fails,
    only the first of them remembers its place; when the scan fails at the second particle, all three
    do, and the first one leads. -/
theorem step_stops_at_second :
    let failing (question : Nat) := Objective.failingAt question Point.x
    let particles : List Particle :=
      [⟨⟨-2, 1⟩, ⟨1, 1⟩, ⟨1, 0⟩⟩, ⟨⟨-9, 0⟩, ⟨7, 1⟩, ⟨2, 0⟩⟩, ⟨⟨-1, 0⟩, ⟨1, 0⟩, ⟨3, 0⟩⟩]
    let c : Config := { bounds := .square (-4) 4 }
    let swarm := { ofConfig c with particles, leader := ⟨.origin, 0⟩ }
    let st : Stage Nat Generator := ⟨swarm, ⟨0, #[]⟩, Generator.ofWords []⟩
    let stopped (question : Nat) := (step (failing question) st).2.swarm
    let mended := (failing 3).mended Point.x
    ((step (failing 3) st).1 = .error (.objectiveFailed "no value") ∧
      (step (failing 7) st).1 = .error (.objectiveFailed "no value") ∧
      mended.Completes (failing 3)) ∧
    StoppedReviewing (failing 3) st 1 (stopped 3) ∧
    (stopped 3).bests =
      (evaluate mended { st with swarm := swarm.confine }).2.swarm.bests.take 1 ++
        [⟨2, 0⟩, ⟨3, 0⟩] ∧
    (stopped 3).bests = [⟨-2, 1⟩, ⟨2, 0⟩, ⟨3, 0⟩] ∧
    StoppedScanning (failing 7) st 1 (stopped 7) ∧
    (stopped 7).bests = [⟨-2, 1⟩, ⟨-4, 0⟩, ⟨-1, 0⟩] ∧
    (stopped 7).leader = ⟨⟨-2, 1⟩, -2⟩ := by
  intro failing particles c swarm st stopped mended
  have hreview : (step (failing 3) st).1 = .error (.objectiveFailed "no value") := by
    decide +kernel
  have hscan : (step (failing 7) st).1 = .error (.objectiveFailed "no value") := by
    decide +kernel
  have hsize : st.swarm.particles.length = 3 := rfl
  have hreviewing : StoppedReviewing (failing 3) st 1 (stopped 3) := by
    have hquestion : (failing 3).firstFailure (questions (failing 3) st) st.memory =
        some (3, "no value") := by decide +kernel
    obtain ⟨-, -, -, k, reason, hfirst, -, j, hj, hplace⟩ := step_stops_at_failure hreview
    obtain ⟨rfl, -⟩ : k = 3 ∧ reason = "no value" := by simpa [hquestion, eq_comm] using hfirst
    rcases hplace with ⟨hk, hreviewing⟩ | ⟨hk, -⟩
    · obtain rfl : j = 1 := by omega
      exact hreviewing
    · omega
  have hscanning : StoppedScanning (failing 7) st 1 (stopped 7) := by
    have hquestion : (failing 7).firstFailure (questions (failing 7) st) st.memory =
        some (7, "no value") := by decide +kernel
    obtain ⟨-, -, -, k, reason, hfirst, -, j, hj, hplace⟩ := step_stops_at_failure hscan
    obtain ⟨rfl, -⟩ : k = 7 ∧ reason = "no value" := by simpa [hquestion, eq_comm] using hfirst
    rcases hplace with ⟨hk, -⟩ | ⟨hk, hscanning⟩
    · omega
    · obtain rfl : j = 1 := by omega
      exact hscanning
  have hmended : mended.Completes (failing 3) := Objective.completes_mended _ _
  exact ⟨⟨hreview, hscan, hmended⟩, hreviewing, (hreviewing.bests mended hmended).2,
    by decide +kernel, hscanning, by decide +kernel, by decide +kernel⟩

end Swarm

end ParticleSwarm
