import ParticleSwarm.Proofs.Attempt

/-!
# Two attempts side by side

To compare two runs, put their states side by side and carry a relation along.  Two attempts are
`Coupled` when related states lead both to the same failure, or to related values, and to related
states again.  Couplings of the parts of an operation give a coupling of the operation.
-/

namespace ParticleSwarm

section Outcomes

variable {ε α β : Type}

/-- The same error, or related values. -/
def SameOutcome (q : α → β → Prop) : Except ε α → Except ε β → Prop
  | .ok a, .ok b => q a b
  | .error e, .error e' => e = e'
  | _, _ => False

namespace SameOutcome

variable {q q' : α → β → Prop} {x : Except ε α} {y : Except ε β}

theorem imp (h : SameOutcome q x y) (himp : ∀ a b, q a b → q' a b) : SameOutcome q' x y := by
  cases x <;> cases y
  · exact h
  · exact h
  · exact h
  · exact himp _ _ h

theorem eq {x y : Except ε α} (h : SameOutcome Eq x y) : x = y := by
  cases x <;> cases y
  · exact congrArg _ h
  · cases h
  · cases h
  · exact congrArg _ h

theorem refl {q : α → α → Prop} (hq : ∀ a, q a a) (x : Except ε α) : SameOutcome q x x := by
  cases x with
  | error e => exact rfl
  | ok a => exact hq a

end SameOutcome

end Outcomes

namespace Attempt

variable {s t α β α' β' : Type}

/-- Related states lead to the same outcome, up to a relation on values, and to related states. -/
def Coupled (r : s → t → Prop) (q : α → β → Prop) (x : Attempt s α) (y : Attempt t β) : Prop :=
  ∀ a b, r a b → SameOutcome q (x a).1 (y b).1 ∧ r (x a).2 (y b).2

namespace Coupled

variable {r : s → t → Prop} {q : α → β → Prop} {q' : α' → β' → Prop}
  {x : Attempt s α} {y : Attempt t β} {f : α → Attempt s α'} {g : β → Attempt t β'}

theorem pure {a : α} {b : β} (h : q a b) :
    Coupled r q (Pure.pure a : Attempt s α) (Pure.pure b : Attempt t β) :=
  fun _ _ hr => ⟨h, hr⟩

theorem get : Coupled r r (MonadState.get : Attempt s s) (MonadState.get : Attempt t t) :=
  fun _ _ hr => ⟨hr, hr⟩

/-- Coupled attempts followed by coupled attempts are coupled.  The first values need only be
    related. -/
theorem bind (hx : Coupled r q x y) (hf : ∀ a b, q a b → Coupled r q' (f a) (g b)) :
    Coupled r q' (x >>= f) (y >>= g) := by
  intro a b hr
  obtain ⟨hout, hr'⟩ := hx a b hr
  rcases hxa : (x a).1 with e | v <;> rcases hyb : (y b).1 with e' | w <;> rw [hxa, hyb] at hout
  · rw [bind_of_error hxa, bind_of_error hyb]
    exact ⟨hout, hr'⟩
  · cases hout
  · cases hout
  · rw [bind_of_ok hxa, bind_of_ok hyb]
    exact hf v w hout _ _ hr'

/-- Parts that give the same value. -/
theorem bind_eq {y : Attempt t α} {g : α → Attempt t β'} (hx : Coupled r Eq x y)
    (hf : ∀ a, Coupled r q' (f a) (g a)) : Coupled r q' (x >>= f) (y >>= g) := by
  apply hx.bind
  rintro a _ rfl
  exact hf a

end Coupled

end Attempt

end ParticleSwarm
