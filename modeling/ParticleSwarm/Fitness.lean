/-!
# Fitness values

Lower is better, and a value that is not finite is worth nothing: whatever an objective means by
NaN or an infinity, `rank` puts it behind every finite value, so it never displaces a stored best.
`best?` picks the first of the best among several candidates.
-/

namespace ParticleSwarm.Fitness

/-- Positive infinity, the rank of everything worthless. -/
def worst : Float := Float.ofBits 0x7ff0000000000000

/-- The value itself if it is finite, and `worst` if it is NaN or an infinity. -/
def rank (fitness : Float) : Float :=
  if fitness.isFinite then fitness else worst

theorem rank_of_isFinite {v : Float} (h : v.isFinite) : rank v = v := if_pos h

theorem rank_of_not_isFinite {v : Float} (h : ¬ v.isFinite) : rank v = worst := if_neg h

/-- Keeps the candidate found so far unless the next one ranks strictly before it. -/
def keepBetter {α : Type} (fitness : α → Float) (found : Option α) (next : α) : Option α :=
  match found with
  | some a => if rank (fitness a) ≤ rank (fitness next) then some a else some next
  | none => some next

/-- The first candidate of least rank, if there are candidates. -/
def best? {α : Type} (fitness : α → Float) (candidates : List α) : Option α :=
  candidates.foldl (keepBetter fitness) none

@[simp] theorem best?_nil {α : Type} (fitness : α → Float) : best? fitness [] = none := rfl

end ParticleSwarm.Fitness
