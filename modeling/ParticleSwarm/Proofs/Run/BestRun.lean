import ParticleSwarm.Proofs.Run.Extension
import ParticleSwarm.Proofs.Run.Succession

/-!
# The best run of a batch

The best run is the first one of least rank, whatever the fitness values are; a run whose fitness is
no number ranks behind every run with a finite one.  In a batch the fitness of a run is the last of
its costs, and costs only go down, so the best run is as good as anything that the batch has seen.
-/

namespace ParticleSwarm

open Fitness

namespace Optimizer

variable {σ γ : Type} [WordSource γ] {opt : Optimizer σ} {session : Session σ}

/-- The fitness of a run is a rank, and it is the least of the costs. -/
theorem fitness_runWith_le {g : γ} {r : RunResult} (h : (opt.runWith g session).1 = .ok r) :
    IsRank r.best.fitness ∧ ∀ v ∈ r.history.toList, r.best.fitness ≤ v := by
  obtain ⟨-, -, hbest, hhistory⟩ := course_eq_ok h
  have hrank (t : Nat) : IsRank (stageAfter opt.objective 0
      (Swarm.start opt.objective (stage opt.config session g)).2 t).swarm.leader.fitness :=
    isRank_stageAfter 0 (Swarm.isRank_leader_start _ _) t
  rw [hbest, hhistory]
  refine ⟨hrank _, ?_⟩
  intro v hv
  obtain ⟨t, ht, rfl⟩ := List.mem_map.mp hv
  have hlast : t ≤ opt.config.maxIterations.toNat := Nat.le_of_lt_succ (List.mem_range.mp ht)
  exact (leadsOn_stageAfter_of_le opt.objective 0 _ hlast).givesWay.fitness_le (hrank t)

end Optimizer

namespace Summary

variable {σ γ : Type} [WordSource γ]

/-- Numbering the runs leaves the first of the best at its place. -/
theorem isFirstLeast_zipIdx {runs : List RunResult} {i : Nat}
    (h : IsFirstLeast (·.best.fitness) runs i) :
    IsFirstLeast (fun run : RunResult × Nat => run.1.best.fitness) runs.zipIdx i := by
  have hlength : runs.zipIdx.length = runs.length := List.length_zipIdx
  refine ⟨hlength ▸ h.lt_length, ?_, ?_⟩
  · intro j hj
    rw [List.getElem_zipIdx, List.getElem_zipIdx]
    exact h.le j (hlength ▸ hj)
  · intro j hj
    rw [List.getElem_zipIdx, List.getElem_zipIdx]
    exact h.lt j hj

/-- **The best run is the first of least rank.**  There is none exactly in an empty summary;
    otherwise it stands at the only place whose run no other one ranks strictly before, and that
    ranks strictly before all runs in front of it.  Of two summaries put together, the best run is
    that of the front one unless that of the back one ranks strictly before it.  In a batch that
    succeeds, no cost of any run is below the fitness of the best run. -/
theorem best_is_first_of_least_rank (opt : Optimizer σ) (generatorFor : Nat → γ)
    (session : Session σ) :
    (∀ s : Summary, (s.bestRun? = none ↔ s.runs = []) ∧
      (s.runs ≠ [] → ∃ i, IsFirstLeast (·.best.fitness) s.runs i ∧
        (∀ k, IsFirstLeast (·.best.fitness) s.runs k → k = i) ∧
        s.bestRun? = s.runs[i]? ∧ s.bestIndex? = some i)) ∧
    (∀ front back : Summary, front.runs ≠ [] → back.runs ≠ [] → ∀ name, ∃ a b,
      front.bestRun? = some a ∧ back.bestRun? = some b ∧
        Summary.bestRun? ⟨name, front.runs ++ back.runs⟩ =
          some (if rank a.best.fitness ≤ rank b.best.fitness then a else b)) ∧
    ∀ summary, (opt.batch generatorFor session).1 = .ok summary → opt.config.numRuns ≠ 0 →
      ∃ best, summary.bestRun? = some best ∧
        ∀ run ∈ summary.runs, ∀ v ∈ run.history.toList, best.best.fitness ≤ v := by
  have hexists (s : Summary) (hs : s.runs ≠ []) : ∃ best, s.bestRun? = some best :=
    Option.ne_none_iff_exists'.mp fun hnone => hs (best?_eq_none_iff.mp hnone)
  refine ⟨?_, ?_, ?_⟩
  · intro s
    refine ⟨best?_eq_none_iff, fun hs => ?_⟩
    obtain ⟨i, hi⟩ : ∃ i, IsFirstLeast (·.best.fitness) s.runs i := exists_isFirstLeast hs
    refine ⟨i, hi, fun k hk => hk.unique hi, hi.best?_eq, ?_⟩
    have hlt := hi.lt_length
    rw [bestIndex?, (isFirstLeast_zipIdx hi).best?_eq]
    simp [hlt]
  · intro front back hfront hback name
    obtain ⟨a, ha⟩ := hexists front hfront
    obtain ⟨b, hb⟩ := hexists back hback
    exact ⟨a, b, ha, hb, best?_append ha hb⟩
  · intro summary hok hcount
    obtain ⟨-, hlength, hruns, -⟩ := Optimizer.batch_eq_ok hok
    have hmem : ∀ run ∈ summary.runs, IsRank run.best.fitness ∧
        ∀ v ∈ run.history.toList, run.best.fitness ≤ v := by
      intro run hrun
      obtain ⟨k, hk, rfl⟩ := List.getElem_of_mem hrun
      exact Optimizer.fitness_runWith_le (hruns k hk)
    have hpos : summary.runs ≠ [] := by
      intro hnil
      rw [hnil, List.length_nil] at hlength
      exact hcount (UInt64.toNat_inj.mp hlength.symm)
    obtain ⟨best, hbest⟩ := hexists summary hpos
    refine ⟨best, hbest, ?_⟩
    intro run hrun v hv
    have hfirst := isFirstBest_of_best? hbest
    have hle := hfirst.le_of_mem hrun
    rw [(hmem best hfirst.mem).1.rank_eq, (hmem run hrun).1.rank_eq] at hle
    exact Double.le_of_le_of_le hle ((hmem run hrun).2 v hv)

def moody : Optimizer (List Float) where
  objective := Optimizer.reciting
  name := "recited values"
  config :=
    { populationSize := 1
      maxIterations := 1
      numRuns := 2
      coefficients := ⟨0, 1, 0⟩
      bounds := .square (-4) 4 }
  valid := rfl

/-- What `moody` recites: the costs `3` and `3` of the first run, and `7` and `1` of the second. -/
def moods : Session (List Float) :=
  ⟨[5, 3, 3, Float.ofBits 0x7ff8000000000000, 3, 3,
    Float.ofBits 0xfff0000000000000, 7, 7, 1, 7, 1], #[]⟩

theorem batch_moody :
    (moody.batch (fun _ => Generator.ofWords [0x4000000000000000, 0]) moods).1 =
      .ok ⟨"recited values", [⟨⟨.origin, 3⟩, ⟨#[3, 3]⟩⟩, ⟨⟨⟨1, 1⟩, 1⟩, ⟨#[7, 1]⟩⟩]⟩ :=
  Attempt.eq_ok_of_toOption (by decide +kernel)

/-- Neither NaN nor an infinity wins against a zero, and the first of two zeros wins whatever their
    signs.  Of the two runs of `moody` the second one is better than all that the first one has
    seen. -/
theorem moody_best_is_second :
    let result (x v : Float) : RunResult := ⟨⟨⟨x, 0⟩, v⟩, .empty⟩
    let front : Summary :=
      ⟨"front", [result 1 (Float.ofBits 0x7ff8000000000000),
        result 2 (Float.ofBits 0xfff0000000000000)]⟩
    let back : Summary := ⟨"back", [result 3 worst, result 4 (-0.0), result 5 0]⟩
    let first : RunResult := ⟨⟨.origin, 3⟩, ⟨#[3, 3]⟩⟩
    let second : RunResult := ⟨⟨⟨1, 1⟩, 1⟩, ⟨#[7, 1]⟩⟩
    (front.runs ≠ [] ∧ back.runs ≠ [] ∧
      Summary.bestRun? ⟨"both", front.runs ++ back.runs⟩ = some (result 4 (-0.0))) ∧
    (moody.batch (fun _ => Generator.ofWords [0x4000000000000000, 0]) moods).1 =
      .ok ⟨"recited values", [first, second]⟩ ∧
    ∀ v ∈ first.history.toList, (1 : Float) ≤ v := by
  intro result front back first second
  obtain ⟨-, hjoin, hbatch⟩ := best_is_first_of_least_rank moody
    (fun _ => Generator.ofWords [0x4000000000000000, 0]) moods
  have hfront : front.bestRun? = some (result 1 (Float.ofBits 0x7ff8000000000000)) := by decide
  have hback : back.bestRun? = some (result 4 (-0.0)) := by decide
  have hbest : Summary.bestRun? ⟨"recited values", [first, second]⟩ = some second := by decide
  refine ⟨⟨by simp [front], by simp [back], ?_⟩, batch_moody, ?_⟩
  · obtain ⟨a, b, ha, hb, hboth⟩ := hjoin front back (by simp [front]) (by simp [back]) "both"
    rw [hfront, Option.some_inj] at ha
    rw [hback, Option.some_inj] at hb
    rw [hboth, ← ha, ← hb]
    decide
  · obtain ⟨best, hleads, hle⟩ := hbatch _ batch_moody (by decide)
    rw [hbest, Option.some_inj] at hleads
    rw [← hleads] at hle
    exact hle first List.mem_cons_self

end Summary

end ParticleSwarm
