import ParticleSwarm.Optimizer
import ParticleSwarm.Proofs.Leader.Meeting
import ParticleSwarm.Proofs.Swarm.Operations

/-!
# The leader agrees with the objective

Under an objective that follows a function `f`, a swarm stays `Consistent`, whatever operations it
goes through and wherever they fail: the leader has the value of its point, and as long as its
point is no longer remembered by any particle, some particle remembers a point that ranks strictly
before it.  So a scan that comes to its end leaves a leader that a particle remembers and that no
particle beats.
-/

namespace ParticleSwarm

open Fitness

/-! ### Leaders with the value of their point -/

namespace Leader

variable {f : Point → Float} {l : Leader}

/-- The leader is the fresh one, or it has the finite value of its point. -/
def Sound (f : Point → Float) (l : Leader) : Prop :=
  l = none ∨ l.fitness.isFinite = true ∧ l.fitness = f l.point

theorem Sound.isRank (h : l.Sound f) : IsRank l.fitness := by
  rcases h with rfl | ⟨hfinite, -⟩
  · exact Or.inr rfl
  · exact Or.inl hfinite

theorem Sound.rank_le_fitness (h : l.Sound f) : rank (f l.point) ≤ l.fitness := by
  rcases h with rfl | ⟨hfinite, hvalue⟩
  · exact rank_le_worst _
  · rw [← hvalue, rank_of_isFinite hfinite]
    exact Double.le_self (Double.isNaN_eq_false_of_isFinite hfinite)

/-- A leader that gives way takes a finite value, as only such a one ranks strictly before
    another. -/
theorem Sound.meet (h : l.Sound f) (p : Particle) : (l.meet f p).Sound f := by
  by_cases hlt : rank (f p.personalBest) < l.fitness
  · rw [meet_of_lt hlt]
    have hfinite : (f p.personalBest).isFinite = true := by
      rw [← h.isRank.rank_eq] at hlt
      exact isFinite_of_rank_lt_rank hlt
    refine Or.inr ⟨?_, rank_of_isFinite hfinite⟩
    change (rank (f p.personalBest)).isFinite = true
    rw [rank_of_isFinite hfinite, hfinite]
  · rw [meet_of_not_lt hlt]
    exact h

theorem Sound.foldl_meet (h : l.Sound f) (ps : List Particle) :
    (ps.foldl (Leader.meet f) l).Sound f := by
  induction ps generalizing l with
  | nil => exact h
  | cons p ps ih => exact ih (h.meet p)

end Leader

/-! ### Consistent swarms -/

namespace Swarm

variable {f : Point → Float} {s s' : Swarm}

/-- What holds of a swarm after any operations, failed ones included. -/
structure Consistent (f : Point → Float) (s : Swarm) : Prop where
  sound : s.leader.Sound f
  covered : s.bests ≠ [] →
    s.leader.point ∈ s.bests ∨ ∃ b ∈ s.bests, rank (f b) < s.leader.fitness

/-- What holds of a swarm after a scan that came to its end. -/
structure Settled (f : Point → Float) (s : Swarm) : Prop where
  fitness_le : ∀ b ∈ s.bests, s.leader.fitness ≤ rank (f b)
  fitness_eq : s.leader.fitness = rank (f s.leader.point)
  mem_bests : s.leader.point ∈ s.bests

/-- Neither the leader nor any remembered point ranks behind what it was before. -/
structure Descends (f : Point → Float) (s s' : Swarm) : Prop where
  leader : s'.leader.fitness ≤ s.leader.fitness
  bests : List.Forall₂ (fun b b' => rank (f b') ≤ rank (f b)) s.bests s'.bests

theorem Descends.trans {t : Swarm} (h : s.Descends f s') (h' : s'.Descends f t) :
    s.Descends f t where
  leader := Double.le_of_le_of_le h'.leader h.leader
  bests := by
    obtain ⟨-, h⟩ := h
    obtain ⟨-, h'⟩ := h'
    generalize s.bests = bs at *
    generalize s'.bests = bs' at *
    generalize t.bests = bs'' at *
    induction h generalizing bs'' with
    | nil =>
      cases h'
      exact .nil
    | cons hb _ ih =>
      cases h' with
      | cons hb' h' => exact .cons (Double.le_of_le_of_le hb' hb) (ih _ h')

theorem Descends.bests_ne_nil (h : s.Descends f s') (hne : s.bests ≠ []) : s'.bests ≠ [] := by
  intro hnil
  have hlength := h.bests.length_eq
  rw [hnil, List.length_nil, List.length_eq_zero_iff] at hlength
  exact hne hlength

theorem Consistent.descends_self (h : s.Consistent f) : s.Descends f s where
  leader := h.sound.isRank.le_self
  bests := List.forall₂_same.mpr fun b _ => rank_le_rank_self (f b)

theorem Consistent.of_eq (h : s.Consistent f) (hleader : s'.leader = s.leader)
    (hbests : s'.bests = s.bests) : s'.Consistent f := by
  refine ⟨?_, ?_⟩
  · rw [hleader]
    exact h.sound
  · rw [hleader, hbests]
    exact h.covered

/-- When no remembered point ranks before the leader of a consistent swarm, the swarm is
    settled. -/
theorem Consistent.settled_of_le (h : s.Consistent f) (hne : s.bests ≠ [])
    (hle : ∀ b ∈ s.bests, s.leader.fitness ≤ rank (f b)) : s.Settled f := by
  have hmem : s.leader.point ∈ s.bests := by
    rcases h.covered hne with hmem | ⟨b, hb, hlt⟩
    · exact hmem
    · have hbehind := hle b hb
      rw [← h.sound.isRank.rank_eq] at hlt hbehind
      exact absurd hlt (not_rank_lt_rank_iff.mpr hbehind)
  refine ⟨hle, ?_, hmem⟩
  rcases h.sound with hnone | ⟨hfinite, hvalue⟩
  · have hworst := hle _ hmem
    rw [hnone] at hworst ⊢
    exact (rank_eq_worst_of_worst_le hworst).symm
  · rw [← hvalue, rank_of_isFinite hfinite]

/-! ### Evaluating and scanning -/

/-- Each remembered point stays, or another one that ranks strictly before it takes its place. -/
def Improves (f : Point → Float) (s s' : Swarm) : Prop :=
  List.Forall₂ (fun b b' => b' = b ∨ rank (f b') < rank (f b)) s.bests s'.bests

theorem Improves.exists_mem (h : s.Improves f s') {b : Point} (hb : b ∈ s.bests) :
    ∃ b' ∈ s'.bests, b' = b ∨ rank (f b') < rank (f b) :=
  exists_mem_of_forall₂ (List.Forall₂.flip h) hb

/-- When the leader stays and the remembered points improve, the leader stays covered: a point that
    is forgotten has given way to a better one. -/
theorem Consistent.of_improves (h : s.Consistent f) (hleader : s'.leader = s.leader)
    (hbests : s.Improves f s') : s'.Consistent f := by
  refine ⟨by rw [hleader]; exact h.sound, fun hne => ?_⟩
  rw [hleader]
  have hne' : s.bests ≠ [] := by
    intro hnil
    unfold Improves at hbests
    rw [hnil, List.forall₂_nil_left_iff] at hbests
    exact hne hbests
  rcases h.covered hne' with hmem | ⟨b, hb, hlt⟩
  · obtain ⟨b', hb', rfl | hlt⟩ := hbests.exists_mem hmem
    · exact Or.inl hb'
    · exact Or.inr ⟨b', hb', Double.lt_of_lt_of_le hlt h.sound.rank_le_fitness⟩
  · obtain ⟨b', hb', rfl | hlt'⟩ := hbests.exists_mem hb
    · exact Or.inr ⟨b', hb', hlt⟩
    · exact Or.inr ⟨b', hb', Double.lt_of_lt_of_le hlt' (Double.le_of_lt hlt)⟩

theorem Consistent.descends_of_improves (h : s.Consistent f) (hleader : s'.leader = s.leader)
    (hbests : s.Improves f s') : s.Descends f s' where
  leader := by
    rw [hleader]
    exact h.sound.isRank.le_self
  bests := by
    refine List.Forall₂.imp ?_ hbests
    rintro b b' (rfl | hlt)
    · exact rank_le_rank_self _
    · exact Double.le_of_lt hlt

section Effects

variable {σ γ : Type} {o : Objective σ} {st : Stage σ γ}

/-- Reviews that stop half way have improved a part of the remembered points. -/
theorem improves_evaluate (hf : o.Follows f) (st : Stage σ γ) :
    st.swarm.Improves f (evaluate o st).2.swarm := by
  obtain ⟨front, rest, hps, hresult, -⟩ :=
    Particle.exists_append_reviewAll_of_follows hf st.swarm.particles st.session
  change List.Forall₂ _ st.swarm.bests
    ((Particle.reviewAll o st.swarm.particles st.session).1.2.map Particle.personalBest)
  rw [hresult, bests, hps, List.map_append, List.map_append, List.map_map]
  refine List.rel_append ?_ (List.forall₂_same.mpr fun b _ => Or.inl rfl)
  rw [List.forall₂_map_left_iff, List.forall₂_map_right_iff, List.forall₂_same]
  intro p _
  change (p.reviewed f).personalBest = p.personalBest ∨ _ < _
  rw [Function.comp_apply, Particle.reviewed, Particle.personalBest_remember]
  split
  case isTrue hlt => exact Or.inr hlt
  case isFalse => exact Or.inl rfl

theorem exists_append_refresh (hf : o.Follows f) (st : Stage σ γ) :
    ∃ front rest, st.swarm.particles = front ++ rest ∧
      (refresh o st).2.swarm =
        { st.swarm with leader := front.foldl (Leader.meet f) st.swarm.leader } ∧
      ∀ b, (refresh o st).1 = .ok b → rest = [] := by
  obtain ⟨front, rest, hps, hresult, hrest⟩ :=
    Leader.exists_append_scan_of_follows hf st.swarm.leader false st.swarm.particles st.session
  refine ⟨front, rest, hps, ?_, hrest⟩
  rw [← hresult]
  rfl

theorem Consistent.refresh (h : st.swarm.Consistent f) (hf : o.Follows f) :
    (Swarm.refresh o st).2.swarm.Consistent f := by
  obtain ⟨front, rest, hps, hresult, -⟩ := exists_append_refresh hf st
  rw [hresult]
  refine ⟨h.sound.foldl_meet front, fun hne => ?_⟩
  rcases Leader.foldl_meet_eq_or_mem f st.swarm.leader front with heq | hmem
  · have hcovered := h.covered hne
    rw [← heq] at hcovered
    exact hcovered
  · refine Or.inl ?_
    change _ ∈ st.swarm.particles.map Particle.personalBest
    rw [hps, List.map_append]
    exact List.mem_append_left _ hmem

theorem Consistent.descends_refresh (h : st.swarm.Consistent f) (hf : o.Follows f) :
    st.swarm.Descends f (Swarm.refresh o st).2.swarm := by
  obtain ⟨front, rest, hps, hresult, -⟩ := exists_append_refresh hf st
  rw [hresult]
  exact ⟨Leader.foldl_meet_fitness_le h.sound.isRank front, h.descends_self.bests⟩

/-- A scan that comes to its end settles the swarm.  No remembered point ranks before the new
    leader, so its point cannot have been forgotten. -/
theorem Consistent.settled_refresh (h : st.swarm.Consistent f) (hf : o.Follows f) {b : Bool}
    (hok : (Swarm.refresh o st).1 = .ok b) (hne : (Swarm.refresh o st).2.swarm.bests ≠ []) :
    (Swarm.refresh o st).2.swarm.Settled f := by
  have hconsistent := h.refresh hf
  obtain ⟨front, rest, hps, hresult, hrest⟩ := exists_append_refresh hf st
  rw [hrest b hok, List.append_nil] at hps
  rw [hresult] at hne hconsistent ⊢
  have hle : ∀ b ∈ st.swarm.bests,
      (front.foldl (Leader.meet f) st.swarm.leader).fitness ≤ rank (f b) := by
    intro b hb
    obtain ⟨p, hp, rfl⟩ := List.mem_map.mp hb
    exact Leader.foldl_meet_fitness_le_rank h.sound.isRank (hps ▸ hp)
  exact hconsistent.settled_of_le hne hle

end Effects

end Swarm

end ParticleSwarm
