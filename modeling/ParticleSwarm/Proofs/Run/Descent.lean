import Mathlib.Data.List.Range
import ParticleSwarm.Proofs.History
import ParticleSwarm.Proofs.Leader.Meeting
import ParticleSwarm.Proofs.Run.Course

/-!
# Costs only go down

A challenge replaces a leader only by one of strictly better rank, and nothing but challenges
replaces the leader of a run after its start.  So a leader gives way only to a better one in every
step, whatever the objective says: it may answer differently each time it is asked about a point, and
what a particle remembers may get worse.  The history of a run therefore never goes up, and as long
as the cost stays the same the leader stays where it is.
-/

namespace ParticleSwarm

open Fitness

/-! ### Leaders -/

namespace Leader

/-- The leader stays, or a strictly better one takes its place. -/
def GivesWay (l l' : Leader) : Prop := l' = l ∨ l'.fitness < l.fitness

variable {l l' l'' : Leader}

theorem GivesWay.refl (l : Leader) : l.GivesWay l := Or.inl rfl

theorem GivesWay.trans (h : l.GivesWay l') (h' : l'.GivesWay l'') : l.GivesWay l'' := by
  rcases h with rfl | hlt
  · exact h'
  · rcases h' with rfl | hlt'
    · exact Or.inr hlt
    · exact Or.inr (Double.lt_of_lt_of_le hlt' (Double.le_of_lt hlt))

theorem GivesWay.fitness_le (h : l.GivesWay l') (hl : IsRank l.fitness) :
    l'.fitness ≤ l.fitness := by
  rcases h with rfl | hlt
  · exact hl.le_self
  · exact Double.le_of_lt hlt

/-- A challenge that is not strictly better changes nothing. -/
theorem givesWay_challenge (l : Leader) (x : Point) (v : Float) :
    l.GivesWay (l.challenge x v) := by
  by_cases h : v < l.fitness
  · refine Or.inr ?_
    rw [fitness_challenge, if_pos h]
    exact h
  · exact Or.inl (if_neg h)

end Leader

/-! ### Steps -/

section Steps

variable {σ γ : Type} {st : Stage σ γ}

/-- The leader gives way to the later one only if that is better, and ranks stay ranks. -/
structure Stage.LeadsOn (st st' : Stage σ γ) : Prop where
  givesWay : st.swarm.leader.GivesWay st'.swarm.leader
  isRank : IsRank st.swarm.leader.fitness → IsRank st'.swarm.leader.fitness

theorem Stage.LeadsOn.refl (st : Stage σ γ) : st.LeadsOn st := ⟨.refl _, id⟩

theorem Stage.LeadsOn.trans {a b c : Stage σ γ} (hab : a.LeadsOn b) (hbc : b.LeadsOn c) :
    a.LeadsOn c := ⟨hab.givesWay.trans hbc.givesWay, fun h => hbc.isRank (hab.isRank h)⟩

theorem Stage.LeadsOn.of_eq {st st' : Stage σ γ} (h : st'.swarm.leader = st.swarm.leader) :
    st.LeadsOn st' := by
  refine ⟨Or.inl h, ?_⟩
  rw [h]
  exact id

namespace Swarm

theorem leads_refresh_leadsOn (o : Objective σ) :
    Attempt.Leads Stage.LeadsOn (refresh o : Course σ γ Bool) := by
  intro st
  have hscan : st.swarm.leader.GivesWay (refresh o st).2.swarm.leader ∧
      (IsRank st.swarm.leader.fitness → IsRank (refresh o st).2.swarm.leader.fitness) := by
    refine Leader.scan_induction (motive := fun l => st.swarm.leader.GivesWay l ∧
      (IsRank st.swarm.leader.fitness → IsRank l.fitness)) o ⟨.refl _, id⟩ ?_ false st.session
    rintro l p v - ⟨hgivesWay, hrank⟩ - -
    exact ⟨hgivesWay.trans (l.givesWay_challenge _ _),
      fun h => Leader.isRank_challenge (hrank h) p.personalBest v⟩
  exact ⟨hscan.1, hscan.2⟩

/-- Only the scan at the end of a pass touches the leader. -/
theorem leads_pass_leadsOn (o : Objective σ) :
    Attempt.Leads Stage.LeadsOn (pass o : Course σ γ Unit) :=
  leads_pass Stage.LeadsOn.refl Stage.LeadsOn.trans (fun _ => .of_eq rfl) (fun _ => .of_eq rfl)
    (leads_refresh_leadsOn o)

variable [WordSource γ]

theorem leads_step_leadsOn (o : Objective σ) :
    Attempt.Leads Stage.LeadsOn (step o : Course σ γ Unit) :=
  leads_step Stage.LeadsOn.refl Stage.LeadsOn.trans (fun _ => .of_eq rfl) (fun _ => .of_eq rfl)
    (leads_refresh_leadsOn o) (fun _ => .of_eq (leader_accelerate _ _)) fun _ => .of_eq rfl

theorem isRank_leader_start (o : Objective σ) (st : Stage σ γ) :
    IsRank (start o st).2.swarm.leader.fitness := by
  have hscattered : IsRank (scatter st).2.swarm.leader.fitness := by
    rw [(fresh_scatter st).leader]
    exact Or.inr rfl
  rcases hok : (scatter st).1 with e | ⟨⟨⟩⟩
  · rw [start, Attempt.bind_of_error hok]
    exact hscattered
  · rw [start, Attempt.bind_of_ok hok]
    exact (leads_pass_leadsOn o _).isRank hscattered

end Swarm

end Steps

/-! ### Histories -/

namespace Optimizer

variable {σ γ : Type} [WordSource γ] {o : Objective σ} {st : Stage σ γ}

theorem leadsOn_stageAfter_succ (o : Objective σ) (first : Nat) (st : Stage σ γ) (n : Nat) :
    (stageAfter o first st n).LeadsOn (stageAfter o first st (n + 1)) := by
  have hstep := Swarm.leads_step_leadsOn o (stageAfter o first st n)
  refine ⟨?_, ?_⟩ <;> rw [stageAfter, swarm_recordedStep]
  · exact hstep.givesWay
  · exact hstep.isRank

theorem isRank_stageAfter (first : Nat) (h : IsRank st.swarm.leader.fitness) (n : Nat) :
    IsRank (stageAfter o first st n).swarm.leader.fitness := by
  induction n with
  | zero => exact h
  | succ n ih => exact (leadsOn_stageAfter_succ o first st n).isRank ih

/-- **Costs only go down.**  Whatever the objective does, a run that succeeds has one cost more than
    it has taken steps, all costs are ranks, none is above the one before it, and the last one is
    what the run reports.  Entry `t` is the cost of the leader after `t` steps, and a leader with
    another point has a cost that is strictly smaller. -/
theorem runWith_history_descends {opt : Optimizer σ} {session : Session σ} {g : γ} {r : RunResult}
    (h : (opt.runWith g session).1 = .ok r) :
    let steps := opt.config.maxIterations.toNat
    let leader (t : Nat) : Leader :=
      (stageAfter opt.objective 0
        (Swarm.start opt.objective (stage opt.config session g)).2 t).swarm.leader
    r.history.size = steps + 1 ∧
      (∀ v ∈ r.history.toList, v.isFinite = true ∨ v = worst) ∧
      (∀ t ≤ steps, r.history.toList[t]? = some (leader t).fitness) ∧
      (∀ t < steps, (leader (t + 1)).fitness ≤ (leader t).fitness ∧
        ((leader (t + 1)).point ≠ (leader t).point →
          (leader (t + 1)).fitness < (leader t).fitness)) ∧
      r.history.isNonIncreasing = true ∧
      r.history.last? = some r.best.fitness := by
  intro steps leader
  obtain ⟨-, -, hbest, hhistory⟩ := course_eq_ok h
  have hrank (t : Nat) : IsRank (leader t).fitness :=
    isRank_stageAfter 0 (Swarm.isRank_leader_start _ _) t
  have hgivesWay (t : Nat) : (leader t).GivesWay (leader (t + 1)) :=
    (leadsOn_stageAfter_succ _ 0 _ t).givesWay
  have hcosts : r.history.toList = (List.range (steps + 1)).map fun t => (leader t).fitness :=
    hhistory
  refine ⟨?_, ?_, ?_, ?_, ?_, ?_⟩
  · rw [← History.length_toList, hcosts, List.length_map, List.length_range]
  · intro v hv
    rw [hcosts] at hv
    obtain ⟨t, -, rfl⟩ := List.mem_map.mp hv
    exact hrank t
  · intro t ht
    rw [hcosts, List.getElem?_map, List.getElem?_range (Nat.lt_succ_of_le ht), Option.map_some]
  · intro t _
    refine ⟨(hgivesWay t).fitness_le (hrank t), fun hne => ?_⟩
    rcases hgivesWay t with heq | hlt
    · exact absurd (congrArg Leader.point heq) hne
    · exact hlt
  · rw [History.isNonIncreasing, History.nonIncreasing_iff, hcosts, List.isChain_map,
      List.isChain_range_succ]
    exact fun t _ => (hgivesWay t).fitness_le (hrank t)
  · rw [History.last?, ← Array.getLast?_toList]
    change r.history.toList.getLast? = _
    rw [hcosts, List.range_succ, List.map_append, List.map_singleton, List.getLast?_concat, hbest]

def reciting : Objective (List Float) :=
  ⟨fun left _ => (.ok (left.headD Fitness.worst), left.tail)⟩

def fickle : Optimizer (List Float) where
  objective := reciting
  name := "recited values"
  config :=
    { populationSize := 1
      maxIterations := 2
      coefficients := ⟨0, 1, 0⟩
      bounds := .square (-4) 4 }
  valid := rfl

/-- What `fickle` recites: the leader reaches the cost `4` on the way, and when its point is scanned
    again the answer is `9`. -/
def recital : Session (List Float) :=
  ⟨[5, 3, 4, Float.ofBits 0x7ff8000000000000, 3, 9, 1, Float.ofBits 0x7ff8000000000000, 2], #[]⟩

/-- The words that put the particle of `fickle` at the origin and move it in both steps. -/
def recitalWords : List UInt64 :=
  0x8000000000000000 :: 0 :: List.replicate 10 0x8000000000000000

theorem runWith_fickle :
    (fickle.runWith (Generator.ofWords recitalWords) recital).1 =
      .ok ⟨⟨⟨1, -1⟩, 2⟩, ⟨#[4, 4, 2]⟩⟩ :=
  Attempt.eq_ok_of_toOption (by decide +kernel)

def fickleLeader (t : Nat) : Leader :=
  (stageAfter fickle.objective 0
    (Swarm.start fickle.objective
      (stage fickle.config recital (Generator.ofWords recitalWords))).2 t).swarm.leader

/-- The leader keeps its place and its cost `4` until the second step brings a better one. -/
theorem fickle_history_descends :
    (History.isNonIncreasing ⟨#[4, 4, 2]⟩ = true ∧ History.last? ⟨#[4, 4, 2]⟩ = some 2) ∧
      (fickleLeader (1 + 1)).point ≠ (fickleLeader 1).point ∧
      (fickleLeader (1 + 1)).fitness < (fickleLeader 1).fitness := by
  have hmoved : (fickleLeader (1 + 1)).point ≠ (fickleLeader 1).point := by decide +kernel
  obtain ⟨-, -, -, hsteps, hdescends, hlast⟩ := runWith_history_descends runWith_fickle
  refine ⟨⟨hdescends, hlast⟩, hmoved, ?_⟩
  unfold fickleLeader at hmoved ⊢
  exact (hsteps 1 (by decide)).2 hmoved

end Optimizer

end ParticleSwarm
