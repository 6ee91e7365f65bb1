import ParticleSwarm.Attempt

/-!
# What an attempt leaves behind

An attempt `Leads` from a state to the state it leaves behind, whether it succeeds or fails.  A
transitive relation that two attempts lead along is one that both together lead along, so a fact on
a long operation is put together from facts on its parts.  What holds after a success needs the
outcomes as well: `bind_fst_eq_ok` takes a success apart, and `bind_fst_eq_error` a failure.  Which
errors an attempt can end with is put together from its parts in the same way, by `FailsOnly`, and so
is what two attempts have in common where one of them succeeds, by `Agrees`.
-/

namespace ParticleSwarm.Attempt

variable {s α β : Type}

/-- Whatever comes of it, the attempt leads from a state to one related to it. -/
def Leads (r : s → s → Prop) (x : Attempt s α) : Prop := ∀ st, r st (x st).2

section Outcome

variable {x : Attempt s α} {f : α → Attempt s β} {st : s}

theorem bind_of_ok {a : α} (h : (x st).1 = .ok a) : (x >>= f) st = f a (x st).2 := by
  rw [bind_apply]
  rcases hx : x st with ⟨_ | b, st'⟩ <;> rw [hx] at h
  · cases h
  · cases h
    rfl

theorem bind_of_error {e : SearchError} (h : (x st).1 = .error e) :
    (x >>= f) st = (.error e, (x st).2) := by
  rw [bind_apply]
  rcases hx : x st with ⟨e' | b, st'⟩ <;> rw [hx] at h
  · cases h
    rfl
  · cases h

theorem liftExcept_bind (r : Except SearchError α) :
    ((liftExcept r : Attempt s α) >>= f) st =
      match r with
      | .ok a => f a st
      | .error e => (.error e, st) := by
  cases r with
  | error e => exact bind_of_error rfl
  | ok a => exact bind_of_ok rfl

/-- One attempt after the other succeeds when both do. -/
theorem bind_fst_eq_ok {b : β} :
    ((x >>= f) st).1 = .ok b ↔ ∃ a, (x st).1 = .ok a ∧ (f a (x st).2).1 = .ok b := by
  rcases hx : (x st).1 with e | a
  · rw [bind_of_error hx]
    simp
  · rw [bind_of_ok hx]
    simp

/-- One attempt after the other fails when the first one does, or the second one after it. -/
theorem bind_fst_eq_error {e : SearchError} :
    ((x >>= f) st).1 = .error e ↔
      (x st).1 = .error e ∨ ∃ a, (x st).1 = .ok a ∧ (f a (x st).2).1 = .error e := by
  rcases hx : (x st).1 with e' | a
  · rw [bind_of_error hx]
    simp
  · rw [bind_of_ok hx]
    simp

theorem outcome_bind_eq_ok {e : Except SearchError α} {f : α → Except SearchError β} {b : β} :
    e >>= f = .ok b ↔ ∃ a, e = .ok a ∧ f a = .ok b := by
  constructor
  · intro h
    cases e with
    | error _ => cases h
    | ok a => exact ⟨a, rfl, h⟩
  · rintro ⟨a, rfl, h⟩
    exact h

theorem outcome_bind_eq_error {x : Except SearchError α} {f : α → Except SearchError β}
    {e : SearchError} : x >>= f = .error e ↔ x = .error e ∨ ∃ a, x = .ok a ∧ f a = .error e := by
  cases x <;> simp [bind, Except.bind]

/-- Values can be decided where outcomes cannot. -/
theorem eq_ok_of_toOption {e : Except SearchError α} {a : α} (h : e.toOption = some a) :
    e = .ok a := by
  cases e with
  | error _ => cases h
  | ok _ =>
    cases h
    rfl

theorem exists_eq_ok_of_isSome {e : Except SearchError α} (h : e.toOption.isSome = true) :
    ∃ a, e = .ok a := by
  obtain ⟨a, ha⟩ := Option.isSome_iff_exists.mp h
  exact ⟨a, eq_ok_of_toOption ha⟩

theorem bind_pure_apply (g : α → β) :
    (x >>= fun a => (Pure.pure (g a) : Attempt s β)) st = ((x st).1.map g, (x st).2) := by
  rw [bind_pure_comp, map_apply]

end Outcome

namespace Leads

variable {r : s → s → Prop} {x : Attempt s α} {f : α → Attempt s β}

theorem pure (refl : ∀ st, r st st) (a : α) : Leads r (Pure.pure a : Attempt s α) :=
  fun st => refl st

/-- What relates the states before and after each part relates them before and after the whole, if
    the relation is transitive. -/
theorem bind (trans : ∀ {a b c}, r a b → r b c → r a c) (hx : Leads r x)
    (hf : ∀ a, Leads r (f a)) : Leads r (x >>= f) := by
  intro st
  rcases h : (x st).1 with e | a
  · rw [bind_of_error h]
    exact hx st
  · rw [bind_of_ok h]
    exact trans (hx st) (hf a _)

end Leads

/-! ### Attempts that agree -/

/-- Wherever the attempt succeeds, the other one does the same. -/
def Agrees (x y : Attempt s α) : Prop := ∀ st a, (x st).1 = .ok a → y st = x st

namespace Agrees

variable {x y : Attempt s α} {f g : α → Attempt s β}

theorem refl (x : Attempt s α) : Agrees x x := fun _ _ _ => rfl

theorem bind (hx : Agrees x y) (hf : ∀ a, Agrees (f a) (g a)) : Agrees (x >>= f) (y >>= g) := by
  intro st b h
  obtain ⟨a, ha, hb⟩ := bind_fst_eq_ok.mp h
  have hy := hx st a ha
  have ha' : (y st).1 = .ok a := by rw [hy, ha]
  rw [bind_of_ok ha, bind_of_ok ha', hy]
  exact hf a _ b hb

end Agrees

/-! ### Kinds of errors -/

/-- Wherever the attempt starts, an error that it ends with is of the given kind. -/
def FailsOnly (kind : SearchError → Prop) (x : Attempt s α) : Prop :=
  ∀ st e, (x st).1 = .error e → kind e

namespace FailsOnly

variable {kind : SearchError → Prop} {x : Attempt s α} {f : α → Attempt s β}

theorem of_ok (h : ∀ st, ∃ a, (x st).1 = .ok a) : FailsOnly kind x := by
  intro st e he
  obtain ⟨a, ha⟩ := h st
  rw [ha] at he
  cases he

/-- The errors of a sequence are those of its parts. -/
theorem bind (hx : FailsOnly kind x) (hf : ∀ a, FailsOnly kind (f a)) :
    FailsOnly kind (x >>= f) := by
  intro st e he
  rcases bind_fst_eq_error.mp he with he | ⟨a, -, he⟩
  · exact hx st e he
  · exact hf a _ e he

theorem bind_pure (hx : FailsOnly kind x) (g : α → β) :
    FailsOnly kind (x >>= fun a => (Pure.pure (g a) : Attempt s β)) :=
  hx.bind fun _ => .of_ok fun _ => ⟨_, rfl⟩

end FailsOnly

end ParticleSwarm.Attempt
