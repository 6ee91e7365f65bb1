import ParticleSwarm.Proofs.Run.FirstPass
import ParticleSwarm.Proofs.Run.Relabelling

/-!
# Batches split

The runs of a batch share nothing but the memory of the objective.  When the objective answers by the
point alone that is nothing at all: each run ends as it would on its own, and a batch is one run
after the other up to the first that fails.  With a seed, run `k` is seeded with the seed plus `k`,
so the runs of a batch from its run `n` on are the runs of another batch, seeded with the seed plus
`n`.
-/

namespace ParticleSwarm

open Fitness Attempt

/-! ### One after the other -/

section Traversal

variable {α β : Type} {e : SearchError}

theorem mapM_eq_ok_iff {f : α → Except SearchError β} {as : List α} {bs : List β} :
    as.mapM f = .ok bs ↔ List.Forall₂ (fun a b => f a = .ok b) as bs := by
  induction as generalizing bs with
  | nil =>
    rw [List.mapM_nil, List.forall₂_nil_left_iff]
    exact ⟨fun h => by cases h; rfl, fun h => by rw [h]; rfl⟩
  | cons a as ih =>
    rw [List.mapM_cons, outcome_bind_eq_ok, List.forall₂_cons_left_iff]
    simp only [outcome_bind_eq_ok, ih]
    constructor
    · rintro ⟨b, hb, bs, hbs, hpure⟩
      cases hpure
      exact ⟨b, bs, hb, hbs, rfl⟩
    · rintro ⟨b, bs, hb, hbs, rfl⟩
      exact ⟨b, hb, bs, hbs, rfl⟩

/-- The first failure ends a traversal. -/
theorem mapM_eq_error_iff {f : α → Except SearchError β} {as : List α} :
    as.mapM f = .error e ↔
      ∃ k, ∃ hk : k < as.length, f as[k] = .error e ∧ ∀ a ∈ as.take k, ∃ b, f a = .ok b := by
  induction as with
  | nil => simp [pure, Except.pure]
  | cons a as ih =>
    have htail (b : β) : (as.mapM f >>= fun bs => pure (b :: bs)) = .error e ↔
        as.mapM f = .error e := by
      cases as.mapM f <;> simp [bind, Except.bind, pure, Except.pure]
    rw [List.mapM_cons, outcome_bind_eq_error]
    simp only [htail, ih]
    constructor
    · rintro (ha | ⟨b, hb, k, hk, he, hfront⟩)
      · exact ⟨0, Nat.succ_pos _, ha, by simp⟩
      · exact ⟨k + 1, Nat.succ_lt_succ hk, he, List.forall_mem_cons.mpr ⟨⟨b, hb⟩, hfront⟩⟩
    · rintro ⟨k, hk, he, hfront⟩
      cases k with
      | zero => exact Or.inl he
      | succ k =>
        obtain ⟨⟨b, hb⟩, hfront⟩ := List.forall_mem_cons.mp hfront
        exact Or.inr ⟨b, hb, k, Nat.lt_of_succ_lt_succ hk, he, hfront⟩

variable {f : Nat → Except SearchError β} {count : Nat}

theorem mapM_range_eq_ok_iff {bs : List β} :
    (List.range count).mapM f = .ok bs ↔
      bs.length = count ∧ ∀ k (hk : k < bs.length), f k = .ok bs[k] := by
  rw [mapM_eq_ok_iff, List.forall₂_iff_get]
  simp only [List.length_range, List.get_eq_getElem, List.getElem_range]
  constructor
  · rintro ⟨hlength, h⟩
    exact ⟨hlength.symm, fun k hk => h k (hlength ▸ hk) hk⟩
  · rintro ⟨hlength, h⟩
    exact ⟨hlength.symm, fun k _ hk => h k hk⟩

/-- The first failure is the error of the whole. -/
theorem mapM_range_eq_error_iff :
    (List.range count).mapM f = .error e ↔
      ∃ k < count, f k = .error e ∧ ∀ j < k, ∃ b, f j = .ok b := by
  rw [mapM_eq_error_iff]
  simp only [List.length_range, List.getElem_range, List.take_range, List.mem_range]
  constructor
  · rintro ⟨k, hk, he, hfront⟩
    exact ⟨k, hk, he, fun j hj => hfront j (by omega)⟩
  · rintro ⟨k, hk, he, hfront⟩
    exact ⟨k, hk, he, fun j hj => hfront j (by omega)⟩

/-- A traversal succeeds in two parts, one after the other. -/
theorem mapM_range_add_eq_ok_iff {n m : Nat} {bs : List β} :
    (List.range (n + m)).mapM f = .ok bs ↔
      ∃ front back, (List.range n).mapM f = .ok front ∧
        (List.range m).mapM (fun k => f (n + k)) = .ok back ∧ bs = front ++ back := by
  rw [List.range_add, List.mapM_append, List.mapM_map]
  simp only [Function.comp_def, outcome_bind_eq_ok]
  constructor
  · rintro ⟨front, hfront, back, hback, hpure⟩
    cases hpure
    exact ⟨front, back, hfront, hback, rfl⟩
  · rintro ⟨front, back, hfront, hback, rfl⟩
    exact ⟨front, hfront, back, hback, rfl⟩

end Traversal

namespace Optimizer

variable {σ γ : Type} [WordSource γ] {opt : Optimizer σ} {answer : Point → Answer}

/-! ### Runs on their own -/

/-- How a run ends does not depend on what the objective remembers. -/
theorem runWith_fst_eq (h : opt.objective.AnswersBy answer) (g : γ) (session session' : Session σ) :
    (opt.runWith g session).1 = (opt.runWith g session').1 := by
  have hstage : (stage opt.config session g).Mirrors Eq (fun _ _ => True)
      (stage opt.config session' g) :=
    ⟨Swarm.mirrors_of_leader Leader.mirrors_none, trivial, rfl⟩
  have hcourse :=
    (coupled_course keepsOrder_eq h.mirrors_self opt.config.maxIterations.toNat _ _ hstage).1
  have hsame : SameOutcome Eq (opt.runWith g session).1 (opt.runWith g session').1 :=
    hcourse.imp fun r r' hr => hr.eq.symm
  exact hsame.eq

/-- Each run of a batch ends as it does in any other session. -/
theorem runs_fst_eq_mapM (h : opt.objective.AnswersBy answer) (generatorFor : Nat → γ)
    (elsewhere : Nat → Session σ) (count first : Nat) (session : Session σ) :
    (opt.runs generatorFor count first session).1 =
      (List.range' first count).mapM fun k => (opt.runWith (generatorFor k) (elsewhere k)).1 := by
  induction count generalizing first session with
  | zero => rfl
  | succ count ih =>
    rw [List.range'_succ, List.mapM_cons, ← runWith_fst_eq h _ session]
    rcases hrun : (opt.runWith (generatorFor first) session).1 with e | run
    · rw [runs, bind_of_error hrun]
      rfl
    · rw [runs, bind_of_ok hrun, bind_of_ok rfl, bind_pure_apply, ih]
      rfl

/-! ### Batches with a seed -/

def withBatch (opt : Optimizer σ) (seed runs : UInt64) : Optimizer σ where
  objective := opt.objective
  name := opt.name
  config := (opt.config.set (.seed seed)).set (.numRuns runs)
  valid := opt.valid

/-- A run by itself, with the generator of a seed. -/
def seeded (opt : Optimizer σ) (seed : UInt64) : Trial σ RunResult :=
  opt.runWith (Generator.ofSeed seed)

theorem runMany_withBatch_fst (h : opt.objective.AnswersBy answer) (seed runs : UInt64)
    (entropy : Nat → UInt64) (session : Session σ) (elsewhere : Nat → Session σ) :
    ((opt.withBatch seed runs).runMany entropy session).1 = do
      let results ← (List.range runs.toNat).mapM fun k =>
        (opt.seeded (seed + .ofNat k) (elsewhere k)).1
      return ⟨opt.name, results⟩ := by
  have hanswers : (opt.withBatch seed runs).objective.AnswersBy answer := h
  rw [runMany, batch, bind_of_ok rfl, bind_pure_apply, runs_fst_eq_mapM hanswers _ elsewhere,
    List.range_eq_range']
  exact map_eq_pure_bind (m := Except SearchError) _ _

section Outcome

variable {seed runs : UInt64} {entropy : Nat → UInt64} {session : Session σ}

/-- A batch succeeds when its runs do, each of them carried out in a session of its own. -/
theorem runMany_withBatch_eq_ok_iff (h : opt.objective.AnswersBy answer)
    (elsewhere : Nat → Session σ) {summary : Summary} :
    ((opt.withBatch seed runs).runMany entropy session).1 = .ok summary ↔
      (List.range runs.toNat).mapM (fun k => (opt.seeded (seed + .ofNat k) (elsewhere k)).1) =
          .ok summary.runs ∧
        summary.objectiveName = opt.name := by
  rw [runMany_withBatch_fst h seed runs entropy session elsewhere, outcome_bind_eq_ok]
  constructor
  · rintro ⟨results, hresults, hpure⟩
    cases hpure
    exact ⟨hresults, rfl⟩
  · rintro ⟨hresults, hname⟩
    refine ⟨summary.runs, hresults, ?_⟩
    rw [← hname]
    rfl

theorem runMany_withBatch_eq_error_iff (h : opt.objective.AnswersBy answer)
    (elsewhere : Nat → Session σ) {e : SearchError} :
    ((opt.withBatch seed runs).runMany entropy session).1 = .error e ↔
      (List.range runs.toNat).mapM (fun k => (opt.seeded (seed + .ofNat k) (elsewhere k)).1) =
        .error e := by
  rw [runMany_withBatch_fst h seed runs entropy session elsewhere, outcome_bind_eq_error]
  constructor
  · rintro (he | ⟨results, -, hpure⟩)
    · exact he
    · cases hpure
  · exact Or.inl

end Outcome

/-- The seeds of the runs from run `n` on. -/
theorem seed_add (seed n : UInt64) (k : Nat) :
    seed + .ofNat (n.toNat + k) = seed + n + .ofNat k := by
  rw [UInt64.ofNat_add, UInt64.ofNat_toNat, UInt64.add_assoc]

/-- **Batches split.**  For an objective that answers by the point alone, a batch of `n + m` runs
    with a seed succeeds exactly when the batch of `n` runs does and so does the batch of `m` runs
    with the seed plus `n`, and it consists of their runs.  A batch that fails has the error of its
    first run that fails on its own; a batch that succeeds has the runs that there are on their own,
    and the first of them is what a single run gives.  Sessions and entropy are arbitrary. -/
theorem runMany_splits (h : opt.objective.AnswersBy answer) (seed n m : UInt64)
    (hlt : n.toNat + m.toNat < UInt64.size) (entropy : UInt64 → UInt64 → Nat → UInt64)
    (session : UInt64 → UInt64 → Session σ) (elsewhere : Nat → Session σ) :
    let outcome (seed runs : UInt64) :=
      ((opt.withBatch seed runs).runMany (entropy seed runs) (session seed runs)).1
    let alone (runs : UInt64) (k : Nat) :=
      let opt' := opt.withBatch seed runs
      (opt'.runWith (opt'.config.generatorFor (entropy seed runs) k) (elsewhere k)).1
    (∀ summary, outcome seed (n + m) = .ok summary ↔
      ∃ front back, outcome seed n = .ok front ∧ outcome (seed + n) m = .ok back ∧
        summary = ⟨opt.name, front.runs ++ back.runs⟩) ∧
    (∀ runs e, outcome seed runs = .error e ↔
      ∃ k < runs.toNat, alone runs k = .error e ∧ ∀ j < k, ∃ r, alone runs j = .ok r) ∧
    (∀ runs summary, outcome seed runs = .ok summary →
      summary.runs.length = runs.toNat ∧
        (∀ k (hk : k < summary.runs.length), alone runs k = .ok summary.runs[k]) ∧
        ∀ hpos : 0 < summary.runs.length,
          ((opt.withBatch seed runs).runOnce (entropy seed runs) (elsewhere 0)).1 =
            .ok summary.runs[0]) ∧
    outcome seed 0 = .ok ⟨opt.name, []⟩ := by
  intro outcome alone
  refine ⟨?_, ?_, ?_, rfl⟩
  · intro summary
    have hcount : (n + m).toNat = n.toNat + m.toNat := by
      rw [UInt64.toNat_add, Nat.mod_eq_of_lt hlt]
    rw [runMany_withBatch_eq_ok_iff h elsewhere, hcount, mapM_range_add_eq_ok_iff]
    simp only [seed_add]
    constructor
    · rintro ⟨⟨front, back, hfront, hback, hruns⟩, hname⟩
      refine ⟨⟨opt.name, front⟩, ⟨opt.name, back⟩,
        (runMany_withBatch_eq_ok_iff h elsewhere).mpr ⟨hfront, rfl⟩,
        (runMany_withBatch_eq_ok_iff h fun k => elsewhere (n.toNat + k)).mpr ⟨hback, rfl⟩, ?_⟩
      rw [← hname, ← hruns]
    · rintro ⟨front, back, hfront, hback, rfl⟩
      obtain ⟨hfront, -⟩ := (runMany_withBatch_eq_ok_iff h elsewhere).mp hfront
      obtain ⟨hback, -⟩ :=
        (runMany_withBatch_eq_ok_iff h fun k => elsewhere (n.toNat + k)).mp hback
      exact ⟨⟨_, _, hfront, hback, rfl⟩, rfl⟩
  · intro runs e
    exact (runMany_withBatch_eq_error_iff h elsewhere).trans mapM_range_eq_error_iff
  · intro runs summary hok
    obtain ⟨hruns, -⟩ := (runMany_withBatch_eq_ok_iff h elsewhere).mp hok
    obtain ⟨hlength, halone⟩ := mapM_range_eq_ok_iff.mp hruns
    exact ⟨hlength, halone, halone 0⟩

/-- One particle that is not moved, and no values on the far right. -/
def ledge : Optimizer Unit where
  objective := .ofFunction fun p => if p.x > 1 then .error "no value" else .ok (p.x - p.y)
  name := "ledge"
  config := { populationSize := 1, maxIterations := 0, bounds := .square (-4) 4 }
  valid := rfl

/-- The seeds wrap around: with the last seed the second run is that of seed `0`.  A batch of five
    fails like its fourth run, that of seed `2`. -/
theorem ledge_runMany_splits :
    let last : UInt64 := 0xffffffffffffffff
    let session : Session Unit := ⟨(), #[]⟩
    let outcome (seed runs : UInt64) := ((ledge.withBatch seed runs).runMany (fun _ => 0) session).1
    (last + 1 = 0 ∧ last + .ofNat 3 = 2) ∧
    (∃ front back, outcome last 1 = .ok front ∧ outcome (last + 1) 1 = .ok back ∧
      outcome last (1 + 1) = .ok ⟨"ledge", front.runs ++ back.runs⟩) ∧
    ∃ e, (ledge.seeded (last + .ofNat 3) session).1 = .error e ∧ outcome last 5 = .error e := by
  intro last session outcome
  have hanswers : ledge.objective.AnswersBy
      fun p => if p.x > 1 then .error "no value" else .ok (p.x - p.y) := fun _ _ => rfl
  obtain ⟨hsplit, hfailure, -, -⟩ := runMany_splits hanswers last 1 1 (by decide) (fun _ _ _ => 0)
    (fun _ _ => session) fun _ => session
  have hok : ∃ summary, outcome last (1 + 1) = .ok summary :=
    exists_eq_ok_of_isSome (by decide +kernel)
  have hearlier : ∀ k < 3, ∃ r, (ledge.seeded (last + .ofNat k) session).1 = .ok r := by
    have hsome : ∀ k < 3, (ledge.seeded (last + .ofNat k) session).1.toOption.isSome = true := by
      decide +kernel
    exact fun k hk => exists_eq_ok_of_isSome (hsome k hk)
  have hfails : (ledge.seeded (last + .ofNat 3) session).1.toOption = none := by decide +kernel
  refine ⟨by decide, ?_, ?_⟩
  · obtain ⟨summary, hsummary⟩ := hok
    obtain ⟨front, back, hfront, hback, rfl⟩ := (hsplit summary).mp hsummary
    exact ⟨front, back, hfront, hback, hsummary⟩
  · rcases he : (ledge.seeded (last + .ofNat 3) session).1 with e | r
    · exact ⟨e, he, (hfailure 5 e).mpr ⟨3, by decide, he, hearlier⟩⟩
    · rw [he] at hfails
      cases hfails

end Optimizer

end ParticleSwarm
