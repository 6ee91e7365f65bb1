import ParticleSwarm.Error

/-!
# Attempts

An `Attempt` works on a state and either gives a value or fails with a `SearchError`.  A failure
undoes nothing: what an attempt has changed before it fails stays changed.

Applied to a state, an attempt gives its outcome and the state it leaves behind.  The lemmas say
this for each way of putting attempts together.
-/

namespace ParticleSwarm

/-- A computation on a state that may fail, and that keeps its changes when it does. -/
abbrev Attempt (s : Type) := ExceptT SearchError (StateM s)

namespace Attempt

variable {s α β : Type} (x : Attempt s α) (st : s)

/-- The second attempt starts where the first one ends, and is left out when the first one fails. -/
@[simp] theorem bind_apply (f : α → Attempt s β) :
    (x >>= f) st =
      match x st with
      | (.ok a, st) => f a st
      | (.error e, st) => (.error e, st) := by
  change (match x st with | (a, st) => ExceptT.bindCont f a st) = _
  rcases x st with ⟨_ | _, _⟩ <;> rfl

@[simp] theorem map_apply (f : α → β) : (f <$> x) st = ((x st).1.map f, (x st).2) := by
  rw [map_eq_pure_bind, bind_apply]
  rcases x st with ⟨_ | _, _⟩ <;> rfl

@[simp] theorem pure_apply (a : α) : (pure a : Attempt s α) st = (.ok a, st) := rfl

@[simp] theorem throw_apply (e : SearchError) : (throw e : Attempt s α) st = (.error e, st) := rfl

@[simp] theorem get_apply : (get : Attempt s s) st = (.ok st, st) := rfl

@[simp] theorem modify_apply (f : s → s) : (modify f : Attempt s Unit) st = (.ok (), f st) := rfl

@[simp] theorem liftExcept_apply (r : Except SearchError α) :
    (liftExcept r : Attempt s α) st = (r, st) := by
  cases r <;> rfl

end Attempt

end ParticleSwarm
