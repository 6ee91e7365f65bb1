import ParticleSwarm.Proofs.Bounds.Projection
import ParticleSwarm.Proofs.Swarm.Consistency

/-!
# What a pass comes to

Under an objective that follows `f`, a pass that succeeds takes a swarm `s` to `s.passed f`.  A pass
that fails stops somewhere on the way: some particles are reviewed, the others only confined, or the
scan has met some of the particles.  Confining, reviewing and meeting a leader change nothing the
second time, so from wherever a pass has stopped another one comes to the same swarm.
-/

namespace ParticleSwarm

open Fitness

/-! ### Once and twice -/

namespace Particle

variable {b : Bounds} {f : Point → Float}

def passed (b : Bounds) (f : Point → Float) (p : Particle) : Particle := (p.confine b).reviewed f

theorem reviewed_eq_or (f : Point → Float) (p : Particle) :
    p.reviewed f = p ∨ p.reviewed f = { p with personalBest := p.position } := by
  unfold reviewed remember
  split
  · exact Or.inr rfl
  · exact Or.inl rfl

/-- A second review at the same position finds nothing better. -/
theorem reviewed_reviewed (f : Point → Float) (p : Particle) :
    (p.reviewed f).reviewed f = p.reviewed f := by
  rcases reviewed_eq_or f p with h | h
  · rw [h, h]
  · rw [h]
    simp [reviewed, remember]

theorem passed_confine (hb : b.Good) (p : Particle) :
    (p.confine b).passed b f = p.passed b f := by
  rw [passed, confine_confine hb, passed]

/-- A review leaves position and velocity alone, so a reviewed particle is still confined. -/
theorem confine_passed (hb : b.Good) (p : Particle) :
    (p.passed b f).confine b = p.passed b f := by
  rcases reviewed_eq_or f (p.confine b) with h | h
  · rw [passed, h, confine_confine hb]
  · rw [passed, h]
    simp [confine, hb.clamp_clamp, Bounds.damp_damp]

theorem passed_passed (hb : b.Good) (p : Particle) :
    (p.passed b f).passed b f = p.passed b f := by
  rw [passed, confine_passed hb, passed, reviewed_reviewed]

end Particle

namespace Swarm

variable {f : Point → Float} {s : Swarm}

def passed (f : Point → Float) (s : Swarm) : Swarm :=
  let particles := s.particles.map (Particle.passed s.bounds f)
  { s with particles := particles, leader := particles.foldl (Leader.meet f) s.leader }

theorem confine_passed (hb : s.bounds.Good) : (s.passed f).confine = s.passed f := by
  simp [passed, confine, Function.comp_def, Particle.confine_passed hb]

/-- Where a pass may stop: after some of the reviews, or after all of them and a part of the scan. -/
inductive Halfway (f : Point → Float) (s : Swarm) : Swarm → Prop
  | reviewing (front rest : List Particle) (h : s.particles = front ++ rest) :
    Halfway f s { s with
      particles := front.map (Particle.passed s.bounds f) ++
        rest.map (Particle.confine s.bounds) }
  | scanning (front rest : List Particle)
    (h : s.particles.map (Particle.passed s.bounds f) = front ++ rest) :
    Halfway f s { s with
      particles := s.particles.map (Particle.passed s.bounds f)
      leader := front.foldl (Leader.meet f) s.leader }

theorem halfway_passed (f : Point → Float) (s : Swarm) : s.Halfway f (s.passed f) :=
  .scanning _ [] (List.append_nil _).symm

/-- Wherever a pass has stopped, the next one comes to the same swarm as it would have. -/
theorem Halfway.passed_eq (hb : s.bounds.Good) (hsound : s.leader.Sound f) {s' : Swarm}
    (h : s.Halfway f s') : s'.passed f = s.passed f := by
  cases h with
  | reviewing front rest h =>
    simp [passed, h, Function.comp_def, Particle.passed_passed hb, Particle.passed_confine hb]
  | scanning front rest h =>
    have hagain : (front ++ rest).map (Particle.passed s.bounds f) = front ++ rest := by
      rw [← h]
      simp [Function.comp_def, Particle.passed_passed hb]
    simp only [passed, h, hagain, List.foldl_append, Leader.foldl_meet_foldl_meet hsound.isRank]

theorem passed_passed (hb : s.bounds.Good) (hsound : s.leader.Sound f) :
    (s.passed f).passed f = s.passed f := (halfway_passed f s).passed_eq hb hsound

/-! ### Passes -/

section Passes

variable {σ γ : Type} {o : Objective σ} {st : Stage σ γ}

theorem generator_pass (o : Objective σ) (st : Stage σ γ) :
    (pass o st).2.generator = st.generator :=
  leads_pass (r := fun st st' => st'.generator = st.generator) (fun _ => rfl)
    (fun h h' => h'.trans h) (fun _ => rfl) (fun _ => rfl) (fun _ => rfl) st

theorem exists_append_evaluate_confine (hf : o.Follows f) (st : Stage σ γ) :
    let evaluated := evaluate o { st with swarm := st.swarm.confine }
    ∃ front rest, st.swarm.particles = front ++ rest ∧
      evaluated.2.swarm = { st.swarm with
        particles := front.map (Particle.passed st.swarm.bounds f) ++
          rest.map (Particle.confine st.swarm.bounds) } ∧
      (evaluated.1 = .ok () → rest = []) := by
  intro evaluated
  obtain ⟨front', rest', hps, hresult, hrest⟩ :=
    Particle.exists_append_reviewAll_of_follows hf st.swarm.confine.particles st.session
  obtain ⟨front, rest, hparticles, rfl, rfl⟩ := List.map_eq_append_iff.mp hps
  refine ⟨front, rest, hparticles, ?_, ?_⟩
  · have hswarm : evaluated.2.swarm = { st.swarm with
        particles := (Particle.reviewAll o st.swarm.confine.particles st.session).1.2 } := rfl
    rw [hswarm, hresult, List.map_map]
    rfl
  · intro hok
    simpa using hrest hok

/-- For a function there are only so many places where a pass can stop. -/
theorem halfway_pass (hf : o.Follows f) (st : Stage σ γ) :
    st.swarm.Halfway f (pass o st).2.swarm := by
  obtain ⟨front, rest, hps, hevaluated, hrest⟩ := exists_append_evaluate_confine hf st
  rcases hok : (evaluate o { st with swarm := st.swarm.confine }).1 with e | ⟨⟨⟩⟩
  · rw [pass_of_evaluate_error hok, hevaluated]
    exact .reviewing front rest hps
  · obtain rfl := hrest hok
    obtain ⟨front', rest', hps', hscanned, -⟩ :=
      exists_append_refresh hf (evaluate o { st with swarm := st.swarm.confine }).2
    rw [pass_of_evaluate_ok hok, hscanned]
    rw [hevaluated, List.map_nil, List.append_nil] at hps' ⊢
    rw [List.append_nil] at hps
    rw [← hps] at hps' ⊢
    exact .scanning front' rest' hps'

/-- A pass that succeeds has a single outcome, whatever the objective remembers. -/
theorem swarm_pass_of_ok (hf : o.Follows f) (hok : (pass o st).1 = .ok ()) :
    (pass o st).2.swarm = st.swarm.passed f := by
  obtain ⟨st₁, changed, hevaluate, hrefresh⟩ := exists_of_pass_eq_ok hok
  obtain ⟨front, rest, hps, hevaluated, hrest⟩ := exists_append_evaluate_confine hf st
  obtain ⟨front', rest', hps', hscanned, hrest'⟩ := exists_append_refresh hf st₁
  rw [hevaluate] at hevaluated hrest
  rw [hrefresh] at hscanned hrest'
  obtain rfl := hrest rfl
  obtain rfl := hrest' changed rfl
  rw [List.append_nil] at hps hps'
  rw [hscanned, ← hps', hevaluated, ← hps]
  simp [passed]

/-- What a step that succeeds comes to depends on where its pass was heading, and on the
    generator. -/
theorem step_of_ok [WordSource γ] (hf : o.Follows f) (hok : (step o st).1 = .ok ()) :
    (step o st).2.swarm = ((st.swarm.passed f).accelerate st.generator).1.advance ∧
      (step o st).2.generator = ((st.swarm.passed f).accelerate st.generator).2 := by
  have hpass := pass_eq_ok_of_step hok
  rw [step_of_pass hpass, swarm_pass_of_ok hf hpass, generator_pass]
  exact ⟨rfl, rfl⟩

end Passes

end Swarm

/-! ### Objectives that answer by the point alone -/

section Answers

variable {σ γ : Type} {o : Objective σ} {answer : Point → Answer}

/-- What the objective says depends on the point only. -/
def Objective.AnswersBy (o : Objective σ) (answer : Point → Answer) : Prop :=
  ∀ m p, (o.answer m p).1 = answer p

/-- The values of a function that may fail, with `0` in place of a failure. -/
def Answer.valueAt (answer : Point → Answer) (p : Point) : Float := (answer p).toOption.getD 0

theorem Objective.AnswersBy.follows (h : o.AnswersBy answer) :
    o.Follows (Answer.valueAt answer) := by
  intro m p v hv
  rw [h m p] at hv
  simp [Answer.valueAt, hv, Except.toOption]

theorem Objective.AnswersBy.cost_fst_eq_ok (h : o.AnswersBy answer) {p : Point} {s : Session σ}
    {v : Float} : (o.cost p s).1 = .ok v ↔ answer p = .ok v := by
  rw [Objective.cost_fst_eq_ok, h]

def Particle.Answered (answer : Point → Answer) (p : Particle) : Prop :=
  (∃ v, answer p.position = .ok v) ∧ ∃ v, answer p.personalBest = .ok v

theorem Particle.Answered.reviewed {p : Particle} (h : p.Answered answer) (f : Point → Float) :
    (p.reviewed f).Answered answer := by
  rcases p.reviewed_eq_or f with heq | heq
  · rwa [heq]
  · rw [heq]
    exact ⟨h.1, h.1⟩

theorem Particle.exists_review_eq_ok_iff (h : o.AnswersBy answer) (p : Particle)
    (s : Session σ) : (∃ p', (p.review o s).1 = .ok p') ↔ p.Answered answer := by
  constructor
  · rintro ⟨p', hp'⟩
    obtain ⟨s₁, s₂, v, w, hv, hw, -⟩ := exists_of_review_eq_ok hp'
    exact ⟨⟨v, h.cost_fst_eq_ok.mp hv⟩, ⟨w, h.cost_fst_eq_ok.mp hw⟩⟩
  · rintro ⟨⟨v, hv⟩, ⟨w, hw⟩⟩
    have hreport (s : Session σ) : (p.report v s).1 = .ok () := by
      unfold report
      cases v.isFinite <;> rfl
    refine ⟨p.remember v w, ?_⟩
    apply Attempt.bind_fst_eq_ok.mpr
    refine ⟨v, h.cost_fst_eq_ok.mpr hv, ?_⟩
    apply Attempt.bind_fst_eq_ok.mpr
    refine ⟨(), hreport _, ?_⟩
    apply Attempt.bind_fst_eq_ok.mpr
    exact ⟨_, Attempt.bind_fst_eq_ok.mpr ⟨w, h.cost_fst_eq_ok.mpr hw, rfl⟩, rfl⟩

theorem Particle.reviewAll_eq_ok_iff (h : o.AnswersBy answer) (ps : List Particle)
    (s : Session σ) : (reviewAll o ps s).1.1 = .ok () ↔ ∀ p ∈ ps, p.Answered answer := by
  induction ps generalizing s with
  | nil => simp [reviewAll]
  | cons p ps ih =>
    rw [List.forall_mem_cons, ← exists_review_eq_ok_iff h p s]
    unfold reviewAll
    rcases p.review o s with ⟨e | p', s'⟩
    · simp
    · simp [ih]

theorem Leader.exists_scan_eq_ok_iff (h : o.AnswersBy answer) (l : Leader) (changed : Bool)
    (ps : List Particle) (s : Session σ) :
    (∃ b, (scan o l changed ps s).1.1 = .ok b) ↔
      ∀ p ∈ ps, ∃ v, answer p.personalBest = .ok v := by
  induction ps generalizing l changed s with
  | nil => simp [scan]
  | cons p ps ih =>
    have hcost (v : Float) : (p.evaluateBest o s).1 = .ok v ↔ answer p.personalBest = .ok v :=
      h.cost_fst_eq_ok
    simp only [List.forall_mem_cons, ← hcost]
    unfold scan
    rcases p.evaluateBest o s with ⟨e | v, s'⟩
    · simp
    · simp [ih]

/-- A pass asks at the confined positions and at remembered points, and nowhere else. -/
theorem Swarm.pass_eq_ok_iff (h : o.AnswersBy answer) (st : Stage σ γ) :
    (pass o st).1 = .ok () ↔ ∀ p ∈ st.swarm.confine.particles, p.Answered answer := by
  constructor
  · intro hok
    obtain ⟨st₁, changed, hevaluate, -⟩ := exists_of_pass_eq_ok hok
    exact (Particle.reviewAll_eq_ok_iff h _ _).mp (congrArg Prod.fst hevaluate)
  · intro hall
    have hreview := (Particle.reviewAll_eq_ok_iff h st.swarm.confine.particles st.session).mpr hall
    have hparticles := Particle.reviewAll_eq_map_of_follows h.follows hreview
    have hbests : ∀ p ∈ (Particle.reviewAll o st.swarm.confine.particles st.session).1.2,
        ∃ v, answer p.personalBest = .ok v := by
      rw [hparticles]
      intro p hp
      obtain ⟨q, hq, rfl⟩ := List.mem_map.mp hp
      exact ((hall q hq).reviewed _).2
    obtain ⟨b, hscan⟩ := (Leader.exists_scan_eq_ok_iff h st.swarm.leader false _ _).mpr hbests
    rw [pass_eq_bind]
    apply Attempt.bind_fst_eq_ok.mpr
    exact ⟨(), hreview, Attempt.bind_fst_eq_ok.mpr ⟨b, hscan, rfl⟩⟩

/-- A pass right after one that has succeeded asks at no other point and changes nothing. -/
theorem Swarm.pass_pass (h : o.AnswersBy answer) {st : Stage σ γ} (hb : st.swarm.bounds.Good)
    (hsound : st.swarm.leader.Sound (Answer.valueAt answer)) (hok : (pass o st).1 = .ok ()) :
    (pass o (pass o st).2).1 = .ok () ∧ (pass o (pass o st).2).2.swarm = (pass o st).2.swarm := by
  have hagain : (pass o (pass o st).2).1 = .ok () := by
    have hall := (pass_eq_ok_iff h st).mp hok
    rw [pass_eq_ok_iff h, swarm_pass_of_ok h.follows hok, confine_passed hb]
    intro p hp
    obtain ⟨q, hq, rfl⟩ := List.mem_map.mp hp
    exact (hall _ (List.mem_map_of_mem hq)).reviewed _
  refine ⟨hagain, ?_⟩
  rw [swarm_pass_of_ok h.follows hagain, swarm_pass_of_ok h.follows hok, passed_passed hb hsound]

end Answers

end ParticleSwarm
