import ParticleSwarm.Proofs.Run.Course
import ParticleSwarm.Proofs.Swarm.Mirroring

/-!
# A run depends on the order of values only

Put other labels on the values of an objective, so that finite values keep their order and worthless
ones stay worthless.  The run does not notice: it asks about the same points in the same order, it
fails at the same question, and its swarm is the same after every step, but for the fitness of the
leader, which carries the new label.  To see which points a run asks about, it is made with the
recorded objective, whose memory holds them.
-/

namespace ParticleSwarm

open Fitness Attempt

/-! ### New labels -/

/-- The second value is as finite as the first one, and its label if it is finite. -/
def Fitness.Labelled (g : Float → Float) (v w : Float) : Prop :=
  w.isFinite = v.isFinite ∧ (v.isFinite = true → w = g v)

namespace Objective

variable {σ : Type} {g : Float → Float} {o o' : Objective σ}

def Gives (o : Objective σ) (v : Float) : Prop := ∃ m p, (o.answer m p).1 = .ok v

/-- The objective with another label on each of its values.  Errors and memory stay as they are. -/
def relabel (g : Float → Float) (o : Objective σ) : Objective σ where
  answer m p := ((o.answer m p).1.map g, (o.answer m p).2)

/-- Among the finite values that the objective gives, the labels are ordered like the values. -/
def OrderedLike (g : Float → Float) (o : Objective σ) : Prop :=
  ∀ v w, o.Gives v → o.Gives w → v.isFinite = true → w.isFinite = true → (v < w ↔ g v < g w)

/-- The second objective fails like the first one, remembers the same, and gives labelled values.
    In place of a worthless value it may give any other worthless one. -/
def Relabels (g : Float → Float) (o o' : Objective σ) : Prop :=
  ∀ m p, SameOutcome (Labelled g) (o.answer m p).1 (o'.answer m p).1 ∧
    (o'.answer m p).2 = (o.answer m p).2

theorem relabels_relabel (hfinite : ∀ v, o.Gives v → (g v).isFinite = v.isFinite) :
    o.Relabels g (o.relabel g) := by
  intro m p
  refine ⟨?_, rfl⟩
  simp only [relabel]
  cases hv : (o.answer m p).1 with
  | error e => exact rfl
  | ok v => exact ⟨hfinite v ⟨m, p, hv⟩, fun _ => rfl⟩

def GivesLabelled (g : Float → Float) (o : Objective σ) (v w : Float) : Prop :=
  o.Gives v ∧ Labelled g v w

/-- Values with their labels are ordered alike, which is all that a run looks at. -/
theorem OrderedLike.keepsOrder (h : o.OrderedLike g) : KeepsOrder (o.GivesLabelled g) where
  isFinite := fun h => h.2.1
  lt_iff := by
    rintro v v' w w' ⟨hv, -, hv'⟩ ⟨hw, -, hw'⟩ hfinite hfinite'
    rw [hv' hfinite, hw' hfinite']
    exact h v w hv hw hfinite hfinite'

theorem Relabels.mirrors_recorded (h : o.Relabels g o') :
    o.recorded.Mirrors (o.GivesLabelled g) Eq o'.recorded := by
  rintro p ⟨m, asked⟩ _ rfl
  obtain ⟨hanswer, hmemory⟩ := h m p
  simp only [recorded, hmemory, and_true]
  cases hv : (o.answer m p).1 <;> cases hv' : (o'.answer m p).1 <;> rw [hv, hv'] at hanswer
  · exact hanswer
  · exact hanswer
  · exact hanswer
  · exact ⟨⟨m, p, hv⟩, hanswer⟩

end Objective

/-! ### Runs that mirror each other -/

/-- The same best point, and ranks that are alike throughout. -/
structure RunResult.Mirrors (q : Float → Float → Prop) (r r' : RunResult) : Prop where
  best : r.best.Mirrors q r'.best
  history : List.Forall₂ (RanksAlike q) r.history.toList r'.history.toList

theorem RunResult.Mirrors.eq {r r' : RunResult} (h : r.Mirrors Eq r') : r' = r := by
  obtain ⟨hbest, hhistory⟩ := h
  have hcosts : r.history.toList = r'.history.toList := by
    rw [← List.forall₂_eq_eq_eq]
    apply hhistory.imp
    intro a a' ha
    exact ha.eq.symm
  exact RunResult.ext_toList hbest.eq hcosts.symm

namespace Optimizer

variable {σ τ γ : Type} [WordSource γ] {q : Float → Float → Prop} {M : σ → τ → Prop}
  {o : Objective σ} {o' : Objective τ}

theorem coupled_recordedStep (hq : KeepsOrder q) (h : o.Mirrors q M o') (number : Nat) :
    Coupled (Stage.Mirrors q M) (RanksAlike q) (recordedStep o number : Course σ γ Float)
      (recordedStep o' number : Course τ γ Float) := by
  apply (Swarm.coupled_step hq h).bind_eq
  intro _ st st' hst
  obtain ⟨l', session', hl, hsession, rfl⟩ := hst.exists_eq
  exact ⟨hl.fitness, ⟨l', hl, rfl⟩, hsession, rfl⟩

theorem coupled_iterate (hq : KeepsOrder q) (h : o.Mirrors q M o') (count first : Nat)
    {seen seen' : History} (hseen : List.Forall₂ (RanksAlike q) seen.toList seen'.toList) :
    Coupled (Stage.Mirrors q M)
      (fun history history' : History =>
        List.Forall₂ (RanksAlike q) history.toList history'.toList)
      (iterate o count first seen : Course σ γ History)
      (iterate o' count first seen' : Course τ γ History) := by
  induction count generalizing first seen seen' with
  | zero => exact .pure hseen
  | succ count ih =>
    rw [iterate_succ, iterate_succ]
    apply (coupled_recordedStep hq h first).bind
    intro a a' ha
    apply ih
    rw [History.toList_observe, History.toList_observe]
    exact List.rel_append hseen (.cons ha .nil)

/-- Mirrored stages lead to mirrored results, the histories included. -/
theorem coupled_course (hq : KeepsOrder q) (h : o.Mirrors q M o') (steps : Nat) :
    Coupled (Stage.Mirrors q M) (RunResult.Mirrors q) (course o steps : Course σ γ RunResult)
      (course o' steps : Course τ γ RunResult) := by
  apply (Swarm.coupled_start hq h).bind_eq
  intro _
  apply Coupled.get.bind
  intro st st' hst
  have hfirst : List.Forall₂ (RanksAlike q)
      (History.empty.observe st.swarm.leader.fitness).toList
      (History.empty.observe st'.swarm.leader.fitness).toList :=
    .cons hst.leader.fitness .nil
  apply (coupled_iterate hq h steps 0 hfirst).bind
  intro history history' hhistory
  apply Coupled.get.bind
  intro st st' hst
  exact .pure ⟨hst.leader, hhistory⟩

/-- Both swarms after a number of steps, of which any may fail. -/
theorem mirrors_stageAfter (hq : KeepsOrder q) (h : o.Mirrors q M o') (first : Nat)
    {st : Stage σ γ} {st' : Stage τ γ} (hst : st.Mirrors q M st') (n : Nat) :
    (stageAfter o first st n).Mirrors q M (stageAfter o' first st' n) := by
  induction n with
  | zero => exact hst
  | succ n ih => exact (coupled_recordedStep hq h (first + n) _ _ ih).2

/-! ### The same course -/

/-- The stage of a recorded run after its start and a number of steps, of which any may fail. -/
def traced {σ : Type} (o : Objective σ) (st : Stage (σ × Array Point) γ) (n : Nat) :
    Stage (σ × Array Point) γ :=
  stageAfter o.recorded 0 (Swarm.start o.recorded st).2 n

/-- Starts and steps have the same outcomes with both objectives.  After each of them the memories
    and the points asked about are the same, and so are the generators and the swarms, but for the
    fitness of the leaders; runs report the same best point. -/
structure SameCourse {σ : Type} (q : Float → Float → Prop) (o o' : Objective σ)
    (st : Stage (σ × Array Point) γ) : Prop where
  start : (Swarm.start o'.recorded st).1 = (Swarm.start o.recorded st).1
  step : ∀ n,
    (Swarm.step o'.recorded (traced o' st n)).1 = (Swarm.step o.recorded (traced o st n)).1
  stages : ∀ n, (traced o st n).Mirrors q Eq (traced o' st n)
  results : ∀ n,
    SameOutcome (RunResult.Mirrors q) (course o.recorded n st).1 (course o'.recorded n st).1

/-- A start forgets the leader, so a run mirrors itself wherever it starts. -/
theorem sameCourse_of_mirrors {σ : Type} {o o' : Objective σ} (hq : KeepsOrder q)
    (h : o.recorded.Mirrors q Eq o'.recorded) (st : Stage (σ × Array Point) γ) :
    SameCourse q o o' st := by
  -- the fitness of the leader that is forgotten need not be a rank
  let cleared : Stage (σ × Array Point) γ := { st with swarm := st.swarm.cleared }
  have hst : cleared.Mirrors q Eq cleared :=
    ⟨Swarm.mirrors_of_leader Leader.mirrors_none, rfl, rfl⟩
  obtain ⟨hstart, hstarted⟩ := Swarm.coupled_start hq h cleared cleared hst
  have hstages := mirrors_stageAfter hq h 0 hstarted
  refine ⟨hstart.eq.symm, ?_, hstages, ?_⟩
  · intro n
    exact (Swarm.coupled_step hq h _ _ (hstages n)).1.eq.symm
  · intro n
    exact (coupled_course hq h n cleared cleared hst).1

theorem SameCourse.imp {σ : Type} {o o' : Objective σ} {q' : Float → Float → Prop}
    (himp : ∀ v w, v.isFinite = true → q v w → q' v w) {st : Stage (σ × Array Point) γ}
    (h : SameCourse q o o' st) : SameCourse q' o o' st := by
  refine ⟨h.start, h.step, fun n => (h.stages n).imp himp, ?_⟩
  intro n
  apply (h.results n).imp
  intro r r' hr
  refine ⟨hr.best.imp himp, hr.history.imp ?_⟩
  intro a a' ha
  exact ha.imp himp

/-- **A run depends on the order of values only.**  Labels that are finite exactly for finite values,
    and that keep the finite values of the objective in order, leave the course of a run as it is.
    Replacing worthless values by others changes nothing at all. -/
theorem sameCourse_relabel {σ : Type} (o : Objective σ) (st : Stage (σ × Array Point) γ) :
    (∀ g, (∀ v, o.Gives v → (g v).isFinite = v.isFinite) → o.OrderedLike g →
      SameCourse (fun v w => w = g v) o (o.relabel g) st) ∧
    ∀ o', o.Relabels id o' → SameCourse Eq o o' st ∧
      (∀ n, (traced o' st n).swarm = (traced o st n).swarm) ∧
      ∀ n, (course o'.recorded n st).1 = (course o.recorded n st).1 := by
  have hmain (g : Float → Float) (o' : Objective σ) (horder : o.OrderedLike g)
      (hlabels : o.Relabels g o') : SameCourse (fun v w => w = g v) o o' st := by
    apply (sameCourse_of_mirrors horder.keepsOrder hlabels.mirrors_recorded st).imp
    rintro v w hfinite ⟨-, -, hlabel⟩
    exact hlabel hfinite
  constructor
  · intro g hfinite horder
    exact hmain g _ horder (Objective.relabels_relabel hfinite)
  · intro o' hlabels
    have hsame : SameCourse Eq o o' st := by
      apply (hmain id o' (fun _ _ _ _ _ _ => Iff.rfl) hlabels).imp
      intro v w _ hw
      exact hw.symm
    refine ⟨hsame, ?_, ?_⟩
    · intro n
      exact (hsame.stages n).swarm.eq
    · intro n
      have hresult : SameOutcome Eq (course o.recorded n st).1 (course o'.recorded n st).1 := by
        apply (hsame.results n).imp
        intro r r' hr
        exact hr.eq.symm
      exact hresult.eq.symm

/-- Two levels, the better one on the right, and a worthless value on the left. -/
def terraces (worthless : Float) : Objective Unit :=
  .ofFunction fun p => .ok (if p.x < 0 then worthless else if p.x < 2 then 2 else 1)

theorem terraces_gives {worthless v : Float} (h : (terraces worthless).Gives v) :
    v = worthless ∨ v = 2 ∨ v = 1 := by
  obtain ⟨⟨⟩, p, hv⟩ := h
  cases hv
  split
  · simp
  · split
    · simp
    · simp

def terraceLabel (v : Float) : Float :=
  if v = 1 then -7 else if v = 2 then 1e300 else Fitness.worst

/-- Two particles, of which one jumps to the better level after the other one has found the worse
    one.  It does not matter which labels the levels have, nor whether the value on the left is NaN
    or infinite. -/
theorem terraces_sameCourse :
    let o := terraces (.ofBits 0x7ff8000000000000)
    let o' := terraces Fitness.worst
    let c : Config :=
      { populationSize := 2, coefficients := ⟨1, 2, 2⟩, bounds := .square (-4) 4 }
    let half : UInt64 := 0x8000000000000000
    let st : Stage (Unit × Array Point) Generator := stage c ⟨((), #[]), #[]⟩
      (.ofWords [0x4000000000000000, 0, half, half, 0xe000000000000000, half, half, 0])
    ((∀ v, o.Gives v → (terraceLabel v).isFinite = v.isFinite) ∧ o.OrderedLike terraceLabel ∧
      o.Relabels id o') ∧
    (course o.recorded 2 st).1 = .ok ⟨⟨⟨4, 0⟩, 1⟩, ⟨#[2, 2, 1]⟩⟩ ∧
    SameCourse (fun v w => w = terraceLabel v) o (o.relabel terraceLabel) st ∧
    (course o'.recorded 2 st).1 = (course o.recorded 2 st).1 := by
  intro o o' c half st
  have hfinite : ∀ v, o.Gives v → (terraceLabel v).isFinite = v.isFinite := by
    intro v hv
    rcases terraces_gives hv with rfl | rfl | rfl <;> decide +kernel
  have horder : o.OrderedLike terraceLabel := by
    intro v w hv hw
    rcases terraces_gives hv with rfl | rfl | rfl <;>
      rcases terraces_gives hw with rfl | rfl | rfl <;> decide +kernel
  have hlabels : o.Relabels id o' := by
    have hnan : (Float.ofBits 0x7ff8000000000000).isFinite = false := by decide +kernel
    rintro ⟨⟩ p
    refine ⟨?_, rfl⟩
    by_cases hleft : p.x < 0
    · simp only [o, o', terraces, Objective.ofFunction, if_pos hleft]
      exact ⟨isFinite_worst.trans hnan.symm, fun h => absurd h (by simp [hnan])⟩
    · simp only [o, o', terraces, Objective.ofFunction, if_neg hleft]
      exact ⟨rfl, fun _ => rfl⟩
  have hok : (course o.recorded 2 st).1 = .ok ⟨⟨⟨4, 0⟩, 1⟩, ⟨#[2, 2, 1]⟩⟩ :=
    eq_ok_of_toOption (by decide +kernel)
  obtain ⟨hrelabel, hreplace⟩ := sameCourse_relabel o st
  exact ⟨⟨hfinite, horder, hlabels⟩, hok,
    hrelabel terraceLabel hfinite horder, (hreplace o' hlabels).2.2 2⟩

end Optimizer

end ParticleSwarm
