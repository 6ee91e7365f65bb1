import Mathlib.Data.List.Forall2
import ParticleSwarm.Leader
import ParticleSwarm.Proofs.Attempt
import ParticleSwarm.Proofs.Fitness.FirstBest

/-!
# Reviews and scans

Reviewing a list of particles, and scanning it for a leader, both stop at the first question the
objective fails to answer.  So each comes to a pure function on the particles in front of that
question and leaves the others alone.  For an objective that follows a function `f` of the point,
however often it fails, these are `Particle.reviewed f` and `Leader.meet f`.
-/

namespace ParticleSwarm

theorem exists_mem_of_forall₂ {α β : Type} {r : α → β → Prop} {as : List α} {bs : List β}
    (h : List.Forall₂ r as bs) {b : β} (hb : b ∈ bs) : ∃ a ∈ as, r a b := by
  induction h with
  | nil => cases hb
  | @cons a c _ _ hac _ ih =>
    rcases List.mem_cons.mp hb with rfl | hb
    · exact ⟨a, List.mem_cons_self, hac⟩
    · obtain ⟨a', ha', h⟩ := ih hb
      exact ⟨a', List.mem_cons_of_mem _ ha', h⟩

namespace Objective

variable {σ : Type} {o : Objective σ} {f : Point → Float} {p : Point} {s : Session σ} {v : Float}

/-- Whenever the objective answers, it answers with the value of `f`. -/
def Follows (o : Objective σ) (f : Point → Float) : Prop :=
  ∀ m p v, (o.answer m p).1 = .ok v → v = f p

def GivesFinite (o : Objective σ) (p : Point) : Prop :=
  ∃ m v, (o.answer m p).1 = .ok v ∧ v.isFinite = true

theorem cost_fst_eq_ok : (o.cost p s).1 = .ok v ↔ (o.answer s.memory p).1 = .ok v := by
  change (o.answer s.memory p).1.mapError SearchError.objectiveFailed = .ok v ↔ _
  rcases (o.answer s.memory p).1 with e | w
  · constructor <;> intro h <;> cases h
  · constructor <;> intro h <;> cases h <;> rfl

theorem Follows.eq_of_cost (h : o.Follows f) (hv : (o.cost p s).1 = .ok v) : v = f p :=
  h _ _ _ (cost_fst_eq_ok.mp hv)

end Objective

/-! ### Reviewing particles -/

namespace Particle

variable {σ : Type} {o : Objective σ} {f : Point → Float}

def reviewed (f : Point → Float) (p : Particle) : Particle :=
  p.remember (f p.position) (f p.personalBest)

/-- A successful review has asked at the position and at the remembered point. -/
theorem exists_of_review_eq_ok {p p' : Particle} {s : Session σ} (h : (p.review o s).1 = .ok p') :
    ∃ s₁ s₂ v w, (o.cost p.position s₁).1 = .ok v ∧ (o.cost p.personalBest s₂).1 = .ok w ∧
      p' = p.remember v w := by
  unfold review at h
  obtain ⟨v, hv, h⟩ := Attempt.bind_fst_eq_ok.mp h
  obtain ⟨-, -, h⟩ := Attempt.bind_fst_eq_ok.mp h
  obtain ⟨updated, hupdated, h⟩ := Attempt.bind_fst_eq_ok.mp h
  unfold updateBest at hupdated
  obtain ⟨w, hw, hupdated⟩ := Attempt.bind_fst_eq_ok.mp hupdated
  cases hupdated
  cases h
  exact ⟨_, _, v, w, hv, hw, rfl⟩

section Cons

variable {p : Particle} {s : Session σ}

theorem reviewAll_cons_of_error {e : SearchError} (h : (p.review o s).1 = .error e)
    (rest : List Particle) :
    reviewAll o (p :: rest) s = ((.error e, p :: rest), (p.review o s).2) := by
  rw [reviewAll]
  rcases hp : p.review o s with ⟨e' | p', s'⟩ <;> rw [hp] at h <;> cases h
  rfl

theorem reviewAll_cons_of_ok {p' : Particle} (h : (p.review o s).1 = .ok p')
    (rest : List Particle) :
    reviewAll o (p :: rest) s =
      let result := reviewAll o rest (p.review o s).2
      ((result.1.1, p' :: result.1.2), result.2) := by
  rw [reviewAll]
  rcases hp : p.review o s with ⟨e' | p', s'⟩ <;> rw [hp] at h <;> cases h
  rfl

end Cons

/-- Reviews stop at the first particle that cannot be reviewed. -/
theorem exists_of_reviewAll_eq_error {ps : List Particle} {s : Session σ} {e : SearchError}
    (h : (reviewAll o ps s).1.1 = .error e) :
    ∃ front p rest, ps = front ++ p :: rest ∧ (reviewAll o front s).1.1 = .ok () ∧
      (p.review o (reviewAll o front s).2).1 = .error e := by
  induction ps generalizing s with
  | nil => cases h
  | cons p ps ih =>
    rcases hp : (p.review o s).1 with e' | p'
    · rw [reviewAll_cons_of_error hp] at h
      cases h
      exact ⟨[], p, ps, rfl, rfl, hp⟩
    · rw [reviewAll_cons_of_ok hp] at h
      obtain ⟨front, q, rest, rfl, hfront, hq⟩ := ih h
      refine ⟨p :: front, q, rest, rfl, ?_, ?_⟩
      · rw [reviewAll_cons_of_ok hp]
        exact hfront
      · rw [reviewAll_cons_of_ok hp]
        exact hq

/-- The particles in front of the first failure are reviewed, the others stay as they are. -/
theorem exists_append_reviewAll (o : Objective σ) (ps : List Particle) (s : Session σ) :
    ∃ front front' rest, ps = front ++ rest ∧ (reviewAll o ps s).1.2 = front' ++ rest ∧
      List.Forall₂ (fun p p' => ∃ s, (p.review o s).1 = .ok p') front front' ∧
      ((reviewAll o ps s).1.1 = .ok () → rest = []) := by
  induction ps generalizing s with
  | nil => exact ⟨[], [], [], rfl, rfl, .nil, fun _ => rfl⟩
  | cons p ps ih =>
    unfold reviewAll
    rcases hp : p.review o s with ⟨e | p', s'⟩
    · exact ⟨[], [], p :: ps, rfl, rfl, .nil, fun h => by cases h⟩
    · obtain ⟨front, front', rest, hps, hresult, hfront, hrest⟩ := ih s'
      refine ⟨p :: front, p' :: front', rest, by rw [hps]; rfl, ?_, ?_, hrest⟩
      · exact congrArg (p' :: ·) hresult
      · exact .cons ⟨s, by rw [hp]⟩ hfront

theorem reviewed_of_review_eq_ok (hf : o.Follows f) {p p' : Particle} {s : Session σ}
    (h : (p.review o s).1 = .ok p') : p' = p.reviewed f := by
  obtain ⟨s₁, s₂, v, w, hv, hw, rfl⟩ := exists_of_review_eq_ok h
  rw [hf.eq_of_cost hv, hf.eq_of_cost hw, reviewed]

/-- Reviews stop at some particle and have reviewed those in front of it, by induction on the
    list. -/
theorem exists_append_reviewAll_of_follows (hf : o.Follows f) (ps : List Particle)
    (s : Session σ) :
    ∃ front rest, ps = front ++ rest ∧ (reviewAll o ps s).1.2 = front.map (reviewed f) ++ rest ∧
      ((reviewAll o ps s).1.1 = .ok () → rest = []) := by
  obtain ⟨front, front', rest, hps, hresult, hfront, hrest⟩ := exists_append_reviewAll o ps s
  refine ⟨front, rest, hps, ?_, hrest⟩
  have hmap : front.map (reviewed f) = front' := by
    clear hps hresult
    induction hfront with
    | nil => rfl
    | cons h _ ih =>
      obtain ⟨s, hs⟩ := h
      rw [List.map_cons, ih, reviewed_of_review_eq_ok hf hs]
  rw [hresult, hmap]

theorem reviewAll_eq_map_of_follows (hf : o.Follows f) {ps : List Particle} {s : Session σ}
    (h : (reviewAll o ps s).1.1 = .ok ()) : (reviewAll o ps s).1.2 = ps.map (reviewed f) := by
  obtain ⟨front, rest, hps, hresult, hrest⟩ := exists_append_reviewAll_of_follows hf ps s
  rw [hrest h, List.append_nil] at hps hresult
  rw [hresult, hps]

theorem remember_eq_or {p : Particle} {s : Session σ} {v w : Float}
    (hv : (o.cost p.position s).1 = .ok v) :
    p.remember v w = p ∨
      p.remember v w = { p with personalBest := p.position } ∧ o.GivesFinite p.position := by
  unfold remember
  split
  case isTrue h =>
    exact Or.inr ⟨rfl, s.memory, v, Objective.cost_fst_eq_ok.mp hv,
      Fitness.isFinite_of_rank_lt_rank h⟩
  case isFalse => exact Or.inl rfl

/-- Whatever the objective says, reviewing changes remembered points only, and only to positions
    with a finite value. -/
theorem forall₂_reviewAll (o : Objective σ) (ps : List Particle) (s : Session σ) :
    List.Forall₂ (fun p p' => p' = p ∨
      p' = { p with personalBest := p.position } ∧ o.GivesFinite p.position)
      ps (reviewAll o ps s).1.2 := by
  obtain ⟨front, front', rest, hps, hresult, hfront, -⟩ := exists_append_reviewAll o ps s
  rw [hps] at hresult ⊢
  rw [hresult]
  refine List.rel_append (hfront.imp ?_) (List.forall₂_same.mpr fun p _ => Or.inl rfl)
  rintro p p' ⟨s, hs⟩
  obtain ⟨s₁, s₂, v, w, hv, -, rfl⟩ := exists_of_review_eq_ok hs
  exact remember_eq_or hv

theorem length_reviewAll (o : Objective σ) (ps : List Particle) (s : Session σ) :
    (reviewAll o ps s).1.2.length = ps.length := (forall₂_reviewAll o ps s).length_eq.symm

end Particle

/-! ### Scanning for a leader -/

namespace Leader

variable {σ : Type} {o : Objective σ} {f : Point → Float}

def meet (f : Point → Float) (l : Leader) (p : Particle) : Leader :=
  l.challenge p.personalBest (Fitness.rank (f p.personalBest))

/-- What holds of the leader at first, and still holds after any challenge, holds of the leader a
    scan ends with. -/
theorem scan_induction {motive : Leader → Prop} (o : Objective σ) {ps : List Particle}
    {l : Leader} (start : motive l)
    (step : ∀ l p v m, motive l → p ∈ ps → (o.answer m p.personalBest).1 = .ok v →
      motive (l.challenge p.personalBest (Fitness.rank v)))
    (changed : Bool) (s : Session σ) : motive (scan o l changed ps s).1.2 := by
  induction ps generalizing l changed s with
  | nil => exact start
  | cons p ps ih =>
    unfold scan
    rcases hp : p.evaluateBest o s with ⟨e | v, s'⟩
    · exact start
    · have hv : (o.answer s.memory p.personalBest).1 = .ok v :=
        Objective.cost_fst_eq_ok.mp (congrArg Prod.fst hp)
      exact ih (step l p v s.memory start List.mem_cons_self hv)
        (fun l q w m hl hq => step l q w m hl (List.mem_cons_of_mem _ hq)) _ s'

section Cons

variable {l : Leader} {changed : Bool} {p : Particle} {s : Session σ}

theorem scan_cons_of_error {e : SearchError} (h : (o.cost p.personalBest s).1 = .error e)
    (rest : List Particle) :
    scan o l changed (p :: rest) s = ((.error e, l), (o.cost p.personalBest s).2) := by
  rw [scan, Particle.evaluateBest]
  rcases hp : o.cost p.personalBest s with ⟨e' | v, s'⟩ <;> rw [hp] at h <;> cases h
  rfl

theorem scan_cons_of_ok {v : Float} (h : (o.cost p.personalBest s).1 = .ok v)
    (rest : List Particle) :
    scan o l changed (p :: rest) s =
      scan o (l.challenge p.personalBest (Fitness.rank v))
        (changed || decide (Fitness.rank v < l.fitness)) rest (o.cost p.personalBest s).2 := by
  rw [scan, Particle.evaluateBest]
  rcases hp : o.cost p.personalBest s with ⟨e' | w, s'⟩ <;> rw [hp] at h <;> cases h
  rfl

end Cons

/-- A scan stops at the first point without a value, with the leader that it has got so far. -/
theorem exists_of_scan_eq_error {l : Leader} {changed : Bool} {ps : List Particle}
    {s : Session σ} {e : SearchError} (h : (scan o l changed ps s).1.1 = .error e) :
    ∃ front p rest told, ps = front ++ p :: rest ∧ (scan o l changed front s).1.1 = .ok told ∧
      (o.cost p.personalBest (scan o l changed front s).2).1 = .error e ∧
      (scan o l changed ps s).1.2 = (scan o l changed front s).1.2 := by
  induction ps generalizing l changed s with
  | nil => cases h
  | cons p ps ih =>
    rcases hp : (o.cost p.personalBest s).1 with e' | v
    · rw [scan_cons_of_error hp] at h ⊢
      cases h
      exact ⟨[], p, ps, changed, rfl, rfl, hp, rfl⟩
    · rw [scan_cons_of_ok hp] at h
      obtain ⟨front, q, rest, told, rfl, hfront, hq, hleader⟩ := ih h
      refine ⟨p :: front, q, rest, told, rfl, ?_⟩
      rw [scan_cons_of_ok hp, scan_cons_of_ok hp]
      exact ⟨hfront, hq, hleader⟩

/-- A scan stops at some particle and has met those in front of it. -/
theorem exists_append_scan_of_follows (hf : o.Follows f) (l : Leader) (changed : Bool)
    (ps : List Particle) (s : Session σ) :
    ∃ front rest, ps = front ++ rest ∧ (scan o l changed ps s).1.2 = front.foldl (meet f) l ∧
      ∀ b, (scan o l changed ps s).1.1 = .ok b → rest = [] := by
  induction ps generalizing l changed s with
  | nil => exact ⟨[], [], rfl, rfl, fun _ _ => rfl⟩
  | cons p ps ih =>
    rcases hp : (o.cost p.personalBest s).1 with e | v
    · rw [scan_cons_of_error hp]
      exact ⟨[], p :: ps, rfl, rfl, fun _ h => by cases h⟩
    · obtain rfl : v = f p.personalBest := hf.eq_of_cost hp
      rw [scan_cons_of_ok hp]
      obtain ⟨front, rest, hps, hresult, hrest⟩ := ih (l.meet f p) _ (o.cost p.personalBest s).2
      exact ⟨p :: front, rest, by rw [hps]; rfl, hresult, hrest⟩

end Leader

end ParticleSwarm
