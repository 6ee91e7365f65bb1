import Mathlib.Data.List.Basic
import ParticleSwarm.Objective
import ParticleSwarm.Proofs.Attempt

/-!
# Which questions an attempt asks

A survey asks an objective at the points of a list, one after the other, and stops at the first
failure.  An attempt on a state with a memory in it `Asks` at the points of a list when it succeeds
or fails as the survey does and leaves the same memory behind.  Since the memory may hold anything
about the questions, their order and number included, the attempt has then asked these questions and
no others.  The questions of two attempts are the questions of both together.
-/

namespace ParticleSwarm

namespace Objective

variable {σ : Type} {o : Objective σ}

def survey (o : Objective σ) : List Point → σ → Except SearchError Unit × σ
  | [], m => (.ok (), m)
  | p :: ps, m =>
    match o.answer m p with
    | (.error reason, m) => (.error (.objectiveFailed reason), m)
    | (.ok _, m) => survey o ps m

/-- Questions are asked in portions, and a failure leaves out those that follow. -/
theorem survey_append (o : Objective σ) (ps qs : List Point) (m : σ) :
    o.survey (ps ++ qs) m =
      match o.survey ps m with
      | (.error e, m) => (.error e, m)
      | (.ok (), m) => o.survey qs m := by
  induction ps generalizing m with
  | nil => rfl
  | cons p ps ih =>
    rw [List.cons_append, survey, survey]
    rcases o.answer m p with ⟨_ | _, m'⟩
    · rfl
    · exact ih m'

/-- A survey that fails has been answered up to some point, and the objective fails there. -/
theorem exists_of_survey_eq_error {ps : List Point} {m m' : σ} {e : SearchError}
    (h : o.survey ps m = (.error e, m')) :
    ∃ front last rest m₁ reason, ps = front ++ last :: rest ∧ o.survey front m = (.ok (), m₁) ∧
      o.answer m₁ last = (.error reason, m') ∧ e = .objectiveFailed reason := by
  induction ps generalizing m with
  | nil => cases h
  | cons p ps ih =>
    rw [survey] at h
    rcases hp : o.answer m p with ⟨reason | v, m₁⟩ <;> rw [hp] at h
    · cases h
      exact ⟨[], p, ps, m, reason, rfl, rfl, hp, rfl⟩
    · obtain ⟨front, last, rest, m₂, reason, rfl, hfront, hlast, he⟩ := ih h
      refine ⟨p :: front, last, rest, m₂, reason, rfl, ?_, hlast, he⟩
      rw [survey, hp]
      exact hfront

theorem survey_eq_ok_of_forall (h : ∀ m p, ∃ v, (o.answer m p).1 = .ok v) (ps : List Point)
    (m : σ) : (o.survey ps m).1 = .ok () := by
  rcases hsurvey : o.survey ps m with ⟨e | ⟨⟨⟩⟩, m'⟩
  · obtain ⟨-, last, -, m₁, reason, -, -, hlast, -⟩ := exists_of_survey_eq_error hsurvey
    obtain ⟨v, hv⟩ := h m₁ last
    rw [hlast] at hv
    cases hv
  · rfl

/-! ### The first failure -/

/-- The number of the first question without an answer, and the reason why there is none. -/
def firstFailure (o : Objective σ) : List Point → σ → Option (Nat × String)
  | [], _ => none
  | p :: ps, m =>
    match o.answer m p with
    | (.error reason, _) => some (0, reason)
    | (.ok _, m) => (firstFailure o ps m).map fun failure => (failure.1 + 1, failure.2)

theorem exists_firstFailure_of_survey {ps : List Point} {m : σ} {e : SearchError}
    (h : (o.survey ps m).1 = .error e) :
    ∃ k reason, o.firstFailure ps m = some (k, reason) ∧ k < ps.length ∧
      e = .objectiveFailed reason := by
  induction ps generalizing m with
  | nil => cases h
  | cons p ps ih =>
    rw [survey] at h
    rw [firstFailure]
    rcases hp : o.answer m p with ⟨reason | v, m₁⟩ <;> rw [hp] at h
    · exact ⟨0, reason, rfl, Nat.succ_pos _, (Except.error.inj h).symm⟩
    · obtain ⟨k, reason, hfirst, hk, he⟩ := ih h
      exact ⟨k + 1, reason, congrArg (Option.map _) hfirst, Nat.succ_lt_succ hk, he⟩

theorem firstFailure_append_of_some {ps : List Point} {m : σ} {failure : Nat × String}
    (h : o.firstFailure ps m = some failure) (qs : List Point) :
    o.firstFailure (ps ++ qs) m = some failure := by
  induction ps generalizing m failure with
  | nil => cases h
  | cons p ps ih =>
    rw [firstFailure] at h
    rw [List.cons_append, firstFailure]
    rcases hp : o.answer m p with ⟨reason | v, m₁⟩ <;> rw [hp] at h
    · exact h
    · obtain ⟨later, hlater, rfl⟩ := Option.map_eq_some_iff.mp h
      exact congrArg (Option.map _) (ih hlater)

/-- Behind questions that are all answered, the numbers go on. -/
theorem firstFailure_append_of_survey {ps : List Point} {m m₁ : σ}
    (h : o.survey ps m = (.ok (), m₁)) (qs : List Point) :
    o.firstFailure (ps ++ qs) m =
      (o.firstFailure qs m₁).map fun failure => (ps.length + failure.1, failure.2) := by
  induction ps generalizing m with
  | nil =>
    cases h
    simp
  | cons p ps ih =>
    rw [survey] at h
    rw [List.cons_append, firstFailure]
    rcases hp : o.answer m p with ⟨reason | v, m₂⟩ <;> rw [hp] at h
    · cases h
    · simp [ih h, Function.comp_def, Nat.add_right_comm]

/-- Behind questions that are answered, a survey that fails is the first failure. -/
theorem exists_firstFailure_append {ps qs : List Point} {m m₁ : σ} {e : SearchError}
    (hps : o.survey ps m = (.ok (), m₁)) (hqs : (o.survey qs m₁).1 = .error e)
    (rest : List Point) :
    ∃ i < qs.length, ∃ reason,
      o.firstFailure (ps ++ (qs ++ rest)) m = some (ps.length + i, reason) ∧
        e = .objectiveFailed reason := by
  obtain ⟨i, reason, hfirst, hi, he⟩ := exists_firstFailure_of_survey hqs
  refine ⟨i, hi, reason, ?_, he⟩
  rw [firstFailure_append_of_survey hps, firstFailure_append_of_some hfirst]
  rfl

/-! ### Recorded questions -/

theorem asked_of_survey_recorded {ps : List Point} {m m' : σ × Array Point}
    (h : o.recorded.survey ps m = (.ok (), m')) : m'.2.toList = m.2.toList ++ ps := by
  induction ps generalizing m with
  | nil =>
    cases h
    exact (List.append_nil _).symm
  | cons p ps ih =>
    rw [survey] at h
    rcases hp : o.recorded.answer m p with ⟨reason | v, m₁⟩ <;> rw [hp] at h
    · cases h
    · have hm₁ : m₁.2 = m.2.push p := congrArg (·.2.2) hp.symm
      rw [ih h, hm₁, Array.toList_push, List.append_assoc, List.singleton_append]

/-- After a failure the record ends with the question that had no answer. -/
theorem exists_of_survey_recorded_eq_error {ps : List Point} {m m' : σ × Array Point}
    {e : SearchError} (h : o.recorded.survey ps m = (.error e, m')) :
    ∃ front last rest m₁ reason, ps = front ++ last :: rest ∧
      m'.2.toList = m.2.toList ++ (front ++ [last]) ∧
      o.recorded.survey front m = (.ok (), m₁) ∧ (o.answer m₁.1 last).1 = .error reason ∧
      e = .objectiveFailed reason := by
  obtain ⟨front, last, rest, m₁, reason, hps, hfront, hlast, he⟩ := exists_of_survey_eq_error h
  refine ⟨front, last, rest, m₁, reason, hps, ?_, hfront, congrArg Prod.fst hlast, he⟩
  have hasked : m'.2 = m₁.2.push last := congrArg (·.2.2) hlast.symm
  rw [hasked, Array.toList_push, asked_of_survey_recorded hfront, List.append_assoc]

/-! ### Budgets -/

/-- The objective with the values of a function that fails as soon as it has been asked a number of
    times. -/
def limited (limit : Nat) (reason : Nat → Point → String) (f : Point → Float) : Objective Nat where
  answer asked p := (if asked < limit then .ok (f p) else .error (reason asked p), asked + 1)

/-- The budget covers the questions when it covers the last of them. -/
theorem survey_limited_eq_ok_iff {limit : Nat} {reason : Nat → Point → String} {f : Point → Float}
    {ps : List Point} {asked : Nat} :
    ((limited limit reason f).survey ps asked).1 = .ok () ↔
      ∀ k < ps.length, asked + k < limit := by
  induction ps generalizing asked with
  | nil => simp [survey]
  | cons p ps ih =>
    rw [List.length_cons, Nat.forall_lt_succ_left, survey]
    by_cases h : asked < limit
    · have hanswer : (limited limit reason f).answer asked p = (.ok (f p), asked + 1) := by
        simp [limited, h]
      simp only [hanswer, ih, Nat.add_assoc, Nat.add_comm 1, Nat.add_zero, h, true_and]
    · simp [limited, h]

theorem eq_of_answer_limited {limit : Nat} {reason : Nat → Point → String} {f : Point → Float}
    {asked : Nat} {p : Point} {v : Float}
    (h : ((limited limit reason f).answer asked p).1 = .ok v) : v = f p := by
  by_cases hasked : asked < limit <;> simp [limited, hasked] at h
  exact h.symm

/-- Who has not been asked yet answers a survey that is no longer than the budget. -/
theorem survey_limited_zero_eq_ok_iff {limit : Nat} {reason : Nat → Point → String}
    {f : Point → Float} {ps : List Point} :
    ((limited limit reason f).survey ps 0).1 = .ok () ↔ ps.length ≤ limit := by
  simp only [survey_limited_eq_ok_iff, Nat.zero_add]
  constructor
  · intro h
    by_contra hlt
    exact Nat.lt_irrefl limit (h limit (Nat.lt_of_not_le hlt))
  · exact fun h k hk => Nat.lt_of_lt_of_le hk h

end Objective

/-! ### Attempts that ask questions -/

namespace Attempt

variable {s σ α β : Type}

/-- From this state on, the attempt asks at these points, one after the other, until it fails. -/
def Asks (o : Objective σ) (memory : s → σ) (ps : List Point) (x : Attempt s α) (st : s) : Prop :=
  ((x st).1.map (fun _ => ()), memory (x st).2) = o.survey ps (memory st)

variable {o : Objective σ} {memory : s → σ} {ps qs : List Point} {x : Attempt s α}
  {f : α → Attempt s β} {st : s}

namespace Asks

theorem silent {a : α} (hok : (x st).1 = .ok a) (hmemory : memory (x st).2 = memory st) :
    Asks o memory [] x st := by
  rw [Asks, hok, hmemory]
  rfl

/-- The second part asks only when the first one has succeeded, from where that has stopped. -/
theorem bind (hx : Asks o memory ps x st)
    (hf : ∀ a, (x st).1 = .ok a → Asks o memory qs (f a) (x st).2) :
    Asks o memory (ps ++ qs) (x >>= f) st := by
  rw [Asks] at hx ⊢
  rw [Objective.survey_append, ← hx]
  rcases h : (x st).1 with e | a
  · rw [bind_of_error h]
    rfl
  · rw [bind_of_ok h]
    exact hf a h

theorem silent_bind (hx : Asks o memory [] x st)
    (hf : ∀ a, (x st).1 = .ok a → Asks o memory qs (f a) (x st).2) :
    Asks o memory qs (x >>= f) st := hx.bind hf

theorem bind_silent (hx : Asks o memory ps x st)
    (hf : ∀ a, (x st).1 = .ok a → Asks o memory [] (f a) (x st).2) :
    Asks o memory ps (x >>= f) st := by
  rw [← List.append_nil ps]
  exact hx.bind hf

theorem survey_of_ok (h : Asks o memory ps x st) {a : α} (hok : (x st).1 = .ok a) :
    o.survey ps (memory st) = (.ok (), memory (x st).2) := by
  rw [← h, hok]
  rfl

theorem survey_of_error (h : Asks o memory ps x st) {e : SearchError}
    (he : (x st).1 = .error e) : o.survey ps (memory st) = (.error e, memory (x st).2) := by
  rw [← h, he]
  rfl

/-- An attempt succeeds when its survey does. -/
theorem exists_eq_ok_iff (h : Asks o memory ps x st) :
    (∃ a, (x st).1 = .ok a) ↔ (o.survey ps (memory st)).1 = .ok () := by
  rw [← h]
  cases (x st).1 with
  | error e => simp [Except.map]
  | ok a => simp [Except.map]

end Asks

def AsksTimes (o : Objective σ) (memory : s → σ) (n : Nat) (x : Attempt s α) : Prop :=
  ∀ st, ∃ ps : List Point, ps.length = n ∧ Asks o memory ps x st

namespace AsksTimes

theorem silent (hok : ∀ st, ∃ a, (x st).1 = .ok a) (hmemory : ∀ st, memory (x st).2 = memory st) :
    AsksTimes o memory 0 x := by
  intro st
  obtain ⟨a, ha⟩ := hok st
  exact ⟨[], rfl, .silent ha (hmemory st)⟩

theorem bind {m n : Nat} (hx : AsksTimes o memory m x) (hf : ∀ a, AsksTimes o memory n (f a)) :
    AsksTimes o memory (m + n) (x >>= f) := by
  intro st
  obtain ⟨ps, hps, hasks⟩ := hx st
  -- after a failure no more questions are asked, and any that could be asked will do
  have hrest : ∃ qs : List Point, qs.length = n ∧
      ∀ a, (x st).1 = .ok a → Asks o memory qs (f a) (x st).2 := by
    rcases (x st).1 with e | a
    · exact ⟨List.replicate n .origin, List.length_replicate, fun _ h => by cases h⟩
    · obtain ⟨qs, hqs, hasks⟩ := hf a (x st).2
      refine ⟨qs, hqs, fun a' h => ?_⟩
      cases h
      exact hasks
  obtain ⟨qs, hqs, hfollows⟩ := hrest
  exact ⟨ps ++ qs, by rw [List.length_append, hps, hqs], hasks.bind hfollows⟩

theorem silent_bind {n : Nat} (hx : AsksTimes o memory 0 x) (hf : ∀ a, AsksTimes o memory n (f a)) :
    AsksTimes o memory n (x >>= f) := by
  rw [← Nat.zero_add n]
  exact hx.bind hf

end AsksTimes

end Attempt

end ParticleSwarm
