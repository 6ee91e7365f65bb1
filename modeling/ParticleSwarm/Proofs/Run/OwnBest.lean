import ParticleSwarm.Proofs.Run.Containment
import ParticleSwarm.Proofs.Run.FirstBest

/-!
# Each particle remembers the first best of its own points

The value of a remembered point is never kept; each review asks for it anew.  With an objective that
follows a function `f`, what a particle remembers is nevertheless the first of the best among the
origin and the positions at which the particle itself has been reviewed.  A pass prefers the position
of each particle to what it remembers, and new velocities and moves leave remembered points alone, so
the remembered points go through the passes side by side, each at its own place in the list.
-/

namespace ParticleSwarm.Swarm

open Fitness

variable {σ γ : Type} {o : Objective σ} {f : Point → Float} {st : Stage σ γ}

/-! ### Passes -/

/-- A pass prefers the position of each particle to the point that it remembers. -/
theorem bests_passed (f : Point → Float) (s : Swarm) :
    (s.passed f).bests = List.zipWith (prefer f) s.bests s.visits := by
  simp only [bests, visits, passed, confine, List.map_map]
  rw [List.zipWith_map, List.zipWith_self]
  apply List.map_congr_left
  intro p _
  exact (p.confine s.bounds).personalBest_reviewed f

/-- Each particle compares its confined position with the point that it remembers. -/
theorem bests_pass_of_ok (hf : o.Follows f) (hok : (pass o st).1 = .ok ()) :
    (pass o st).2.swarm.bests = List.zipWith (prefer f) st.swarm.bests st.swarm.visits := by
  rw [swarm_pass_of_ok hf hok, bests_passed]

variable [WordSource γ]

theorem bests_step_of_ok (hf : o.Follows f) (hok : (step o st).1 = .ok ()) :
    (step o st).2.swarm.bests = List.zipWith (prefer f) st.swarm.bests st.swarm.visits := by
  have hpass := pass_eq_ok_of_step hok
  rw [step_of_pass hpass, ← bests_pass_of_ok hf hpass]
  exact (bests_advance _).trans (bests_accelerate _ _)

theorem bests_start_of_ok (hf : o.Follows f) (hok : (start o st).1 = .ok ()) :
    (start o st).2.swarm.bests =
      List.zipWith (prefer f) (scatter st).2.swarm.bests (scatter st).2.swarm.visits := by
  obtain ⟨-, hpass⟩ := start_eq_pass hok
  rw [hpass] at hok ⊢
  exact bests_pass_of_ok hf hok

/-! ### Runs -/

/-- The positions of the particles in a pass, in the order of the particles.  The first pass, with
    index zero, belongs to the start, the others to the steps. -/
def positionsIn (o : Objective σ) (st : Stage σ γ) : Nat → List Point
  | 0 => (scatter st).2.swarm.visits
  | t + 1 => (after o st t).swarm.visits

/-- The positions of the particle with index `j` in the passes up to the one with index `n`. -/
structure IsPath (o : Objective σ) (st : Stage σ γ) (j n : Nat) (path : List Point) : Prop where
  length_eq : path.length = n + 1
  getElem?_eq : ∀ t ≤ n, path[t]? = (positionsIn o st t)[j]?

theorem isPath_singleton {j : Nat} {x : Point} (h : (positionsIn o st 0)[j]? = some x) :
    IsPath o st j 0 [x] := by
  refine ⟨rfl, ?_⟩
  intro t ht
  rw [Nat.le_zero.mp ht, h]
  rfl

theorem IsPath.append {j n : Nat} {path : List Point} (hpath : IsPath o st j n path) {x : Point}
    (h : (positionsIn o st (n + 1))[j]? = some x) : IsPath o st j (n + 1) (path ++ [x]) := by
  have hlength := hpath.length_eq
  refine ⟨by rw [List.length_append, hlength, List.length_singleton], ?_⟩
  intro t ht
  rcases Nat.lt_or_eq_of_le ht with ht | rfl
  · rw [List.getElem?_append_left (by omega), hpath.getElem?_eq t (Nat.le_of_lt_succ ht)]
  · rw [← hlength, List.getElem?_concat_length, hlength, h]

/-- What a particle remembers comes from the origin by preferring its positions one after the
    other. -/
theorem exists_path_of_bests (hf : o.Follows f) (hstart : (start o st).1 = .ok ()) {n : Nat}
    (hsteps : ∀ t < n, (step o (after o st t)).1 = .ok ()) {j : Nat} {b : Point}
    (hb : (after o st n).swarm.bests[j]? = some b) :
    ∃ path, IsPath o st j n path ∧ b = path.foldl (prefer f) .origin := by
  induction n generalizing b with
  | zero =>
    rw [after, bests_start_of_ok hf hstart, List.getElem?_zipWith_eq_some] at hb
    obtain ⟨b₀, x, hb₀, hx, rfl⟩ := hb
    have horigin : b₀ = .origin :=
      (fresh_scatter st).eq_origin_of_mem_bests (List.mem_of_getElem? hb₀)
    refine ⟨[x], isPath_singleton hx, ?_⟩
    rw [horigin]
    rfl
  | succ n ih =>
    rw [after, bests_step_of_ok hf (hsteps n n.lt_succ_self), List.getElem?_zipWith_eq_some] at hb
    obtain ⟨b', x, hb', hx, rfl⟩ := hb
    obtain ⟨path, hpath, rfl⟩ := ih (fun t ht => hsteps t (Nat.lt_succ_of_lt ht)) hb'
    refine ⟨path ++ [x], hpath.append hx, ?_⟩
    rw [List.foldl_append]
    rfl

/-- **Each particle remembers the first best of its own points.**  After a start and a number of
    steps that succeed, with an objective that follows `f`, the point that a particle remembers is
    the first of the best among the origin and the positions of the particle in all passes. -/
theorem personalBest_eq_firstBest (hf : o.Follows f) (hstart : (start o st).1 = .ok ()) {n : Nat}
    (hsteps : ∀ t < n, (step o (after o st t)).1 = .ok ()) {j : Nat} {p : Particle}
    (hp : (after o st n).swarm.particles[j]? = some p) :
    ∃ path, IsPath o st j n path ∧ firstBest? f (.origin :: path) = some p.personalBest := by
  have hb : (after o st n).swarm.bests[j]? = some p.personalBest := by
    rw [bests, List.getElem?_map, hp, Option.map_some]
  obtain ⟨path, hpath, hbest⟩ := exists_path_of_bests hf hstart hsteps hb
  refine ⟨path, hpath, ?_⟩
  rw [firstBest?_cons, hbest]

/-- A function without a number at the origin, and with the same value at points that mirror each
    other. -/
def steepness (p : Point) : Float := p.y * p.y / p.x

/-- The first of two particles moves to the mirror image of its first position.  That is no better,
    so it remembers its first position and not the later one, nor the worthless origin. -/
theorem steepness_personalBest :
    let half : UInt64 := 0x8000000000000000
    let o : Objective Unit := .ofFunction fun p => .ok (steepness p)
    let c : Config :=
      { populationSize := 2, coefficients := ⟨1, 2, 2⟩, bounds := .square (-4) 4 }
    let st := Optimizer.stage c ⟨(), #[]⟩
      (Generator.ofWords [0x4000000000000000, 0, half, half, 0xe000000000000000, half, half, 0])
    (o.Follows steepness ∧ (start o st).1 = .ok () ∧
      (∀ t < 2, (step o (after o st t)).1 = .ok ()) ∧
      (after o st 2).swarm.particles[0]?.map Particle.personalBest = some ⟨1, -2⟩) ∧
    (List.range 3).map (fun t => (positionsIn o st t)[0]?) =
      [some ⟨1, -2⟩, some ⟨1, -2⟩, some ⟨1, 2⟩] ∧
    (steepness .origin).isNaN = true ∧ steepness ⟨1, 2⟩ = steepness ⟨1, -2⟩ ∧
    ∃ path, IsPath o st 0 2 path ∧ firstBest? steepness (.origin :: path) = some ⟨1, -2⟩ := by
  intro half o c st
  have hf : o.Follows steepness := fun _ _ _ h => (Except.ok.inj h).symm
  have hstart : (start o st).1 = .ok () := Attempt.eq_ok_of_toOption (by decide +kernel)
  have hsteps : ∀ t < 2, (step o (after o st t)).1 = .ok () := by
    intro t ht
    apply Attempt.eq_ok_of_toOption
    revert t
    decide +kernel
  have hbest : (after o st 2).swarm.particles[0]?.map Particle.personalBest = some ⟨1, -2⟩ := by
    decide +kernel
  obtain ⟨p, hp, hpoint⟩ := Option.map_eq_some_iff.mp hbest
  refine ⟨⟨hf, hstart, hsteps, hbest⟩, by decide +kernel, by decide +kernel, by decide +kernel, ?_⟩
  rw [← hpoint]
  exact personalBest_eq_firstBest hf hstart hsteps hp

end ParticleSwarm.Swarm
