import ParticleSwarm.Proofs.Coupling
import ParticleSwarm.Proofs.Swarm.Operations

/-!
# Swarms that mirror each other

A search reads the values of its objective in one way only: it compares their ranks.  So let two
objectives fail together and otherwise give values related by some `q` that keeps finite values
finite and in their order.  Then two swarms that agree, up to the fitness of their leaders, agree
after every operation, and the operation has the same outcome for both.  The memories of the two
objectives may differ as well; a relation `M` says how they correspond.
-/

namespace ParticleSwarm

open Fitness Attempt

/-! ### Ranks that mirror each other -/

namespace Fitness

/-- Related values are finite together, and finite ones are ordered alike. -/
structure KeepsOrder (q : Float → Float → Prop) : Prop where
  isFinite : ∀ {v v'}, q v v' → v'.isFinite = v.isFinite
  lt_iff : ∀ {v v' w w'}, q v v' → q w w' → v.isFinite = true → w.isFinite = true →
    (v < w ↔ v' < w')

theorem keepsOrder_eq : KeepsOrder Eq where
  isFinite := by
    rintro v _ rfl
    rfl
  lt_iff := by
    rintro v _ w _ rfl rfl - -
    exact Iff.rfl

/-- Both are the worst rank, or both are finite and related. -/
def RanksAlike (q : Float → Float → Prop) (a a' : Float) : Prop :=
  a = worst ∧ a' = worst ∨ a.isFinite = true ∧ a'.isFinite = true ∧ q a a'

theorem RanksAlike.eq {a a' : Float} (h : RanksAlike Eq a a') : a' = a := by
  rcases h with ⟨rfl, rfl⟩ | ⟨-, -, rfl⟩
  · rfl
  · rfl

theorem RanksAlike.imp {q q' : Float → Float → Prop}
    (himp : ∀ v w, v.isFinite = true → q v w → q' v w) {a a' : Float} (h : RanksAlike q a a') :
    RanksAlike q' a a' := by
  rcases h with hworst | ⟨ha, ha', hq⟩
  · exact Or.inl hworst
  · exact Or.inr ⟨ha, ha', himp a a' ha hq⟩

variable {q : Float → Float → Prop} {v v' a a' b b' : Float}

theorem KeepsOrder.ranksAlike (hq : KeepsOrder q) (h : q v v') :
    RanksAlike q (rank v) (rank v') := by
  by_cases hv : v.isFinite = true
  · have hv' : v'.isFinite = true := (hq.isFinite h).trans hv
    rw [rank_of_isFinite hv, rank_of_isFinite hv']
    exact Or.inr ⟨hv, hv', h⟩
  · have hv' : ¬ v'.isFinite = true := by rwa [hq.isFinite h]
    exact Or.inl ⟨rank_of_not_isFinite hv, rank_of_not_isFinite hv'⟩

/-- Ranks that are alike compare alike, the worst one included. -/
theorem KeepsOrder.lt_iff_of_ranksAlike (hq : KeepsOrder q) (ha : RanksAlike q a a')
    (hb : RanksAlike q b b') : a < b ↔ a' < b' := by
  rcases ha with ⟨rfl, rfl⟩ | ⟨ha, ha', hqa⟩
  · -- nothing is behind the worst rank
    rcases hb with ⟨rfl, rfl⟩ | ⟨hb, hb', -⟩
    · exact Iff.rfl
    · have hle := Double.le_of_lt (lt_worst_of_isFinite hb)
      have hle' := Double.le_of_lt (lt_worst_of_isFinite hb')
      exact iff_of_false (not_worst_lt hle) (not_worst_lt hle')
  · rcases hb with ⟨rfl, rfl⟩ | ⟨hb, hb', hqb⟩
    · exact iff_of_true (lt_worst_of_isFinite ha) (lt_worst_of_isFinite ha')
    · exact hq.lt_iff hqa hqb ha hb

end Fitness

/-! ### Objectives, leaders and stages that mirror each other -/

section Definitions

variable {σ τ γ : Type}

/-- As long as their memories correspond, the objectives fail together or give related values. -/
def Objective.Mirrors (q : Float → Float → Prop) (M : σ → τ → Prop) (o : Objective σ)
    (o' : Objective τ) : Prop :=
  ∀ p m m', M m m' →
    SameOutcome q (o.answer m p).1 (o'.answer m' p).1 ∧ M (o.answer m p).2 (o'.answer m' p).2

/-- The memories of the two sessions correspond.  The logs may differ. -/
def Session.Mirrors (M : σ → τ → Prop) (s : Session σ) (s' : Session τ) : Prop :=
  M s.memory s'.memory

/-- The same point, with ranks that are alike. -/
structure Leader.Mirrors (q : Float → Float → Prop) (l l' : Leader) : Prop where
  point : l'.point = l.point
  fitness : RanksAlike q l.fitness l'.fitness

def Swarm.Mirrors (q : Float → Float → Prop) (s s' : Swarm) : Prop :=
  ∃ l', s.leader.Mirrors q l' ∧ s' = { s with leader := l' }

/-- Mirrored swarms, corresponding memories, and the same generator. -/
structure Stage.Mirrors (q : Float → Float → Prop) (M : σ → τ → Prop) (st : Stage σ γ)
    (st' : Stage τ γ) : Prop where
  swarm : st.swarm.Mirrors q st'.swarm
  memory : st.session.Mirrors M st'.session
  generator : st'.generator = st.generator

end Definitions

namespace Leader

variable {q : Float → Float → Prop} {l l' : Leader}

theorem mirrors_none : none.Mirrors q none := ⟨rfl, Or.inl ⟨rfl, rfl⟩⟩

theorem Mirrors.eq (h : l.Mirrors Eq l') : l' = l := by
  have hpoint := h.point
  have hfitness := h.fitness.eq
  cases l
  cases l'
  simp_all

theorem Mirrors.imp {q' : Float → Float → Prop}
    (himp : ∀ v w, v.isFinite = true → q v w → q' v w) (h : l.Mirrors q l') : l.Mirrors q' l' :=
  ⟨h.point, h.fitness.imp himp⟩

theorem Mirrors.challenge (hq : KeepsOrder q) (h : l.Mirrors q l') {a a' : Float}
    (ha : RanksAlike q a a') (x : Point) : (l.challenge x a).Mirrors q (l'.challenge x a') := by
  have hiff := hq.lt_iff_of_ranksAlike ha h.fitness
  by_cases hlt : a < l.fitness
  · have hlt' : a' < l'.fitness := hiff.mp hlt
    simp only [Leader.challenge, if_pos hlt, if_pos hlt']
    exact ⟨rfl, ha⟩
  · have hlt' : ¬ a' < l'.fitness := fun h => hlt (hiff.mpr h)
    simp only [Leader.challenge, if_neg hlt, if_neg hlt']
    exact h

end Leader

theorem Swarm.Mirrors.eq {s s' : Swarm} (h : s.Mirrors Eq s') : s' = s := by
  obtain ⟨l', hl, rfl⟩ := h
  rw [hl.eq]

theorem Swarm.mirrors_of_leader {q : Float → Float → Prop} {s : Swarm}
    (h : s.leader.Mirrors q s.leader) : s.Mirrors q s := ⟨s.leader, h, rfl⟩

theorem Stage.Mirrors.imp {σ τ γ : Type} {q q' : Float → Float → Prop} {M : σ → τ → Prop}
    (himp : ∀ v w, v.isFinite = true → q v w → q' v w) {st : Stage σ γ} {st' : Stage τ γ}
    (h : st.Mirrors q M st') : st.Mirrors q' M st' := by
  obtain ⟨⟨l', hl, hswarm⟩, hmemory, hgenerator⟩ := h
  exact ⟨⟨l', hl.imp himp, hswarm⟩, hmemory, hgenerator⟩

theorem Stage.Mirrors.leader {σ τ γ : Type} {q : Float → Float → Prop} {M : σ → τ → Prop}
    {st : Stage σ γ} {st' : Stage τ γ} (h : st.Mirrors q M st') :
    st.swarm.leader.Mirrors q st'.swarm.leader := by
  obtain ⟨l', hl, hswarm⟩ := h.swarm
  rw [hswarm]
  exact hl

theorem Stage.Mirrors.exists_eq {σ τ γ : Type} {q : Float → Float → Prop} {M : σ → τ → Prop}
    {st : Stage σ γ} {st' : Stage τ γ} (h : st.Mirrors q M st') :
    ∃ l' session', st.swarm.leader.Mirrors q l' ∧ st.session.Mirrors M session' ∧
      st' = ⟨{ st.swarm with leader := l' }, session', st.generator⟩ := by
  obtain ⟨⟨l', hl, hswarm⟩, hmemory, hgenerator⟩ := h
  refine ⟨l', st'.session, hl, hmemory, ?_⟩
  rw [← hswarm, ← hgenerator]

/-! ### Reviews and scans -/

section Questions

variable {σ τ : Type} {q : Float → Float → Prop} {M : σ → τ → Prop} {o : Objective σ}
  {o' : Objective τ}

theorem Objective.Mirrors.cost (h : o.Mirrors q M o') (p : Point) :
    Coupled (Session.Mirrors M) q (o.cost p) (o'.cost p) := by
  intro s s' hs
  obtain ⟨hanswer, hmemory⟩ := h p s.memory s'.memory hs
  refine ⟨?_, hmemory⟩
  change SameOutcome q ((o.answer s.memory p).1.mapError SearchError.objectiveFailed)
    ((o'.answer s'.memory p).1.mapError SearchError.objectiveFailed)
  cases hv : (o.answer s.memory p).1 <;> cases hv' : (o'.answer s'.memory p).1 <;>
    rw [hv, hv'] at hanswer
  · exact congrArg _ hanswer
  · exact hanswer
  · exact hanswer
  · exact hanswer

namespace Particle

/-- A review finds the same particle, since only the ranks of two values are compared. -/
theorem remember_eq_of_mirrors (hq : KeepsOrder q) (p : Particle) {v v' w w' : Float}
    (hv : q v v') (hw : q w w') : p.remember v w = p.remember v' w' := by
  have hiff := hq.lt_iff_of_ranksAlike (hq.ranksAlike hv) (hq.ranksAlike hw)
  simp only [remember, hiff]

theorem coupled_report (hq : KeepsOrder q) (p : Particle) {v v' : Float} (hv : q v v') :
    Coupled (Session.Mirrors M) Eq (p.report v) (p.report v') := by
  intro s s' hs
  simp only [report, hq.isFinite hv]
  cases v.isFinite with
  | true => exact ⟨rfl, hs⟩
  | false => exact ⟨rfl, hs⟩

theorem coupled_review (hq : KeepsOrder q) (h : o.Mirrors q M o') (p : Particle) :
    Coupled (Session.Mirrors M) Eq (p.review o) (p.review o') := by
  apply (h.cost p.position).bind
  intro v v' hv
  apply (coupled_report hq p hv).bind_eq
  intro _
  apply Coupled.bind (q := fun updated updated' => updated.1 = updated'.1)
  · apply (h.cost p.personalBest).bind
    intro w w' hw
    exact .pure (remember_eq_of_mirrors hq p hv hw)
  · intro updated updated' hupdated
    exact .pure hupdated

theorem reviewAll_mirrors (hq : KeepsOrder q) (h : o.Mirrors q M o') (ps : List Particle)
    {s : Session σ} {s' : Session τ} (hs : s.Mirrors M s') :
    (reviewAll o ps s).1 = (reviewAll o' ps s').1 ∧
      (reviewAll o ps s).2.Mirrors M (reviewAll o' ps s').2 := by
  induction ps generalizing s s' with
  | nil => exact ⟨rfl, hs⟩
  | cons p ps ih =>
    obtain ⟨hout, hs₁⟩ := coupled_review hq h p s s' hs
    replace hout := hout.eq
    unfold reviewAll
    rcases hp : p.review o s with ⟨e | p₁, s₁⟩ <;>
      rcases hp' : p.review o' s' with ⟨e' | p₁', s₁'⟩ <;> rw [hp, hp'] at hout hs₁
    · cases hout
      exact ⟨rfl, hs₁⟩
    · cases hout
    · cases hout
    · cases hout
      obtain ⟨hrest, hs₂⟩ := ih hs₁
      exact ⟨by simp only [hrest], hs₂⟩

end Particle

/-- Mirrored leaders meet the same particles and give way at the same ones. -/
theorem Leader.scan_mirrors (hq : KeepsOrder q) (h : o.Mirrors q M o') (ps : List Particle)
    {l l' : Leader} (hl : l.Mirrors q l') (changed : Bool) {s : Session σ} {s' : Session τ}
    (hs : s.Mirrors M s') :
    (scan o l changed ps s).1.1 = (scan o' l' changed ps s').1.1 ∧
      (scan o l changed ps s).1.2.Mirrors q (scan o' l' changed ps s').1.2 ∧
      (scan o l changed ps s).2.Mirrors M (scan o' l' changed ps s').2 := by
  induction ps generalizing l l' changed s s' with
  | nil => exact ⟨rfl, hl, hs⟩
  | cons p ps ih =>
    obtain ⟨hout, hs₁⟩ := h.cost p.personalBest s s' hs
    unfold scan Particle.evaluateBest
    rcases hp : o.cost p.personalBest s with ⟨e | v, s₁⟩ <;>
      rcases hp' : o'.cost p.personalBest s' with ⟨e' | v', s₁'⟩ <;> rw [hp, hp'] at hout hs₁
    · cases hout
      exact ⟨rfl, hl, hs₁⟩
    · cases hout
    · cases hout
    · have hrank := hq.ranksAlike hout
      simp only [← hq.lt_iff_of_ranksAlike hrank hl.fitness]
      exact ih (hl.challenge hq hrank p.personalBest) _ hs₁

end Questions

/-! ### Operations -/

namespace Swarm

variable {σ τ γ : Type} {q : Float → Float → Prop} {M : σ → τ → Prop} {o : Objective σ}
  {o' : Objective τ}

theorem coupled_confine :
    Coupled (Stage.Mirrors q M) Eq (Course.change confine : Course σ γ Unit)
      (Course.change confine : Course τ γ Unit) := by
  intro st st' hst
  obtain ⟨l', session', hl, hsession, rfl⟩ := hst.exists_eq
  exact ⟨rfl, ⟨l', hl, rfl⟩, hsession, rfl⟩

theorem coupled_evaluate (hq : KeepsOrder q) (h : o.Mirrors q M o') :
    Coupled (Stage.Mirrors q M) Eq (evaluate o : Course σ γ Unit)
      (evaluate o' : Course τ γ Unit) := by
  intro st st' hst
  obtain ⟨l', session', hl, hsession, rfl⟩ := hst.exists_eq
  obtain ⟨hout, hsession⟩ := Particle.reviewAll_mirrors hq h st.swarm.particles hsession
  simp only [evaluate, ← hout]
  exact ⟨SameOutcome.refl (fun _ => rfl) _, ⟨l', hl, rfl⟩, hsession, rfl⟩

theorem coupled_refresh (hq : KeepsOrder q) (h : o.Mirrors q M o') :
    Coupled (Stage.Mirrors q M) Eq (refresh o : Course σ γ Bool)
      (refresh o' : Course τ γ Bool) := by
  intro st st' hst
  obtain ⟨l', session', hl, hsession, rfl⟩ := hst.exists_eq
  obtain ⟨hout, hleader, hsession⟩ := Leader.scan_mirrors hq h st.swarm.particles hl false hsession
  simp only [refresh, ← hout]
  exact ⟨SameOutcome.refl (fun _ => rfl) _, ⟨_, hleader, rfl⟩, hsession, rfl⟩

/-- The parts of a pass are coupled one by one. -/
theorem coupled_pass (hq : KeepsOrder q) (h : o.Mirrors q M o') :
    Coupled (Stage.Mirrors q M) Eq (pass o : Course σ γ Unit) (pass o' : Course τ γ Unit) := by
  apply coupled_confine.bind_eq
  intro _
  apply (coupled_evaluate hq h).bind_eq
  intro _
  apply (coupled_refresh hq h).bind_eq
  intro _
  exact .pure rfl

theorem coupled_advance :
    Coupled (Stage.Mirrors q M) Eq (Course.change advance : Course σ γ Unit)
      (Course.change advance : Course τ γ Unit) := by
  intro st st' hst
  obtain ⟨l', session', hl, hsession, rfl⟩ := hst.exists_eq
  exact ⟨rfl, ⟨l', hl, rfl⟩, hsession, rfl⟩

variable [WordSource γ]

theorem coupled_scatter :
    Coupled (Stage.Mirrors q M) Eq (scatter : Course σ γ Unit) (scatter : Course τ γ Unit) := by
  intro st st' hst
  obtain ⟨l', session', hl, hsession, rfl⟩ := hst.exists_eq
  simp only [scatter_apply]
  cases Sampler.build st.swarm.bounds st.swarm.sampling with
  | error e => exact ⟨rfl, mirrors_of_leader Leader.mirrors_none, hsession, rfl⟩
  | ok sampler => exact ⟨rfl, mirrors_of_leader Leader.mirrors_none, hsession, rfl⟩

theorem coupled_start (hq : KeepsOrder q) (h : o.Mirrors q M o') :
    Coupled (Stage.Mirrors q M) Eq (start o : Course σ γ Unit) (start o' : Course τ γ Unit) := by
  apply coupled_scatter.bind_eq
  intro _
  exact coupled_pass hq h

theorem coupled_accelerate :
    Coupled (Stage.Mirrors q M) Eq (Course.draw accelerate : Course σ γ Unit)
      (Course.draw accelerate : Course τ γ Unit) := by
  intro st st' hst
  obtain ⟨l', session', hl, hsession, rfl⟩ := hst.exists_eq
  simp only [Course.draw_apply, accelerate_apply, hl.point]
  exact ⟨rfl, ⟨l', hl, rfl⟩, hsession, rfl⟩

theorem coupled_step (hq : KeepsOrder q) (h : o.Mirrors q M o') :
    Coupled (Stage.Mirrors q M) Eq (step o : Course σ γ Unit) (step o' : Course τ γ Unit) := by
  apply (coupled_pass hq h).bind_eq
  intro _
  apply coupled_accelerate.bind_eq
  intro _
  exact coupled_advance

end Swarm

end ParticleSwarm
