import ParticleSwarm.Proofs.Bounds.Clamping
import ParticleSwarm.Proofs.Run.Course
import ParticleSwarm.Proofs.Swarm.AnyOrder
import ParticleSwarm.Proofs.Validation

/-!
# What can fail after validation

Once a configuration is accepted, an operation fails only when the objective has no value at some
point, or when a start cannot build its sampler.  Splitting from zero needs no preparation.  Uniform
sampling needs the width of each axis, and two finite ends in the right order may lie so far apart
that their distance is not a finite double: validation compares the ends and never looks at the
width.  Nor does it look at the number of steps, and the call of a run begins with the sum of that
number and one.  So for an objective that always answers, a call returns a result exactly when no
axis is too wide and the sum is a 64-bit number.
-/

namespace ParticleSwarm

/-! ### Widths -/

namespace Bounds

/-- The width of an axis can be scaled to a finite double, as uniform sampling does. -/
def Scalable (b : Bounds) (a : Axis) : Prop :=
  ((b.max.along a - b.min.along a) / UniformRange.largestSpan).isFinite = true

instance (b : Bounds) (a : Axis) : Decidable (b.Scalable a) := inferInstanceAs (Decidable (_ = _))

def refusal (b : Bounds) (a : Axis) : SearchError :=
  .invalidBounds a (b.min.along a) (b.max.along a)

variable {b : Bounds}

theorem Good.rangeAlong_of_scalable (hb : b.Good) {a : Axis} (h : b.Scalable a) :
    ∃ r, Sampler.rangeAlong b a = .ok r := by
  unfold Scalable at h
  simp [Sampler.rangeAlong, UniformRange.ofEnds?, hb.min_le_max a, h]

theorem Good.rangeAlong_of_not_scalable (hb : b.Good) {a : Axis} (h : ¬ b.Scalable a) :
    Sampler.rangeAlong b a = .error (b.refusal a) := by
  unfold Scalable at h
  simp [Sampler.rangeAlong, UniformRange.ofEnds?, hb.min_le_max a, h, refusal]

/-- On good bounds a sampler can be built unless it is uniform and an axis is too wide. -/
theorem Good.exists_build_iff (hb : b.Good) {way : Sampling} :
    (∃ sampler, Sampler.build b way = .ok sampler) ↔ (way = .uniform → ∀ a, b.Scalable a) := by
  cases way with
  | splitFromZero => simp [Sampler.build]
  | uniform =>
    constructor
    · rintro ⟨sampler, h⟩ -
      obtain ⟨x, hx, h⟩ := Attempt.outcome_bind_eq_ok.mp h
      obtain ⟨y, hy, -⟩ := Attempt.outcome_bind_eq_ok.mp h
      intro a
      by_contra hnot
      have herror := hb.rangeAlong_of_not_scalable hnot
      cases a with
      | x => simp [hx] at herror
      | y => simp [hy] at herror
    · intro h
      obtain ⟨x, hx⟩ := hb.rangeAlong_of_scalable (h rfl .x)
      obtain ⟨y, hy⟩ := hb.rangeAlong_of_scalable (h rfl .y)
      refine ⟨.uniform x y, ?_⟩
      exact Attempt.outcome_bind_eq_ok.mpr ⟨x, hx, Attempt.outcome_bind_eq_ok.mpr ⟨y, hy, rfl⟩⟩

/-- The error of a sampler that cannot be built names an axis that is too wide. -/
theorem Good.build_eq_error (hb : b.Good) {way : Sampling} {e : SearchError}
    (h : Sampler.build b way = .error e) :
    way = .uniform ∧ ∃ a, ¬ b.Scalable a ∧ e = b.refusal a := by
  cases way with
  | splitFromZero => cases h
  | uniform =>
    refine ⟨rfl, ?_⟩
    by_cases hx : b.Scalable .x
    · by_cases hy : b.Scalable .y
      · obtain ⟨sampler, hok⟩ := hb.exists_build_iff.mpr fun _ a => by
          cases a with
          | x => exact hx
          | y => exact hy
        rw [h] at hok
        cases hok
      · obtain ⟨r, hr⟩ := hb.rangeAlong_of_scalable hx
        simp only [Sampler.build, hr, hb.rangeAlong_of_not_scalable hy] at h
        cases h
        exact ⟨.y, hy, rfl⟩
    · simp only [Sampler.build, hb.rangeAlong_of_not_scalable hx] at h
      cases h
      exact ⟨.x, hx, rfl⟩

end Bounds

def Config.TooWide (c : Config) (a : Axis) : Prop := c.sampling = .uniform ∧ ¬ c.bounds.Scalable a

/-! ### Errors of the objective -/

section Errors

variable {σ γ : Type} {o : Objective σ}

/-- The error is a reason that the objective gives for having no value somewhere. -/
def Objective.FailsWith (o : Objective σ) (e : SearchError) : Prop :=
  ∃ m p reason, (o.answer m p).1 = .error reason ∧ e = .objectiveFailed reason

def Objective.NeverFails (o : Objective σ) : Prop := ∀ m p, ∃ v, (o.answer m p).1 = .ok v

theorem Objective.NeverFails.not_failsWith (h : o.NeverFails) (e : SearchError) :
    ¬ o.FailsWith e := by
  rintro ⟨m, p, reason, hreason, -⟩
  obtain ⟨v, hv⟩ := h m p
  rw [hv] at hreason
  cases hreason

open Attempt in
theorem Objective.failsOnly_cost (o : Objective σ) (p : Point) :
    FailsOnly o.FailsWith (o.cost p) := by
  intro s e h
  change (o.answer s.memory p).1.mapError SearchError.objectiveFailed = .error e at h
  rcases hanswer : (o.answer s.memory p).1 with reason | v
  · rw [hanswer] at h
    cases h
    exact ⟨s.memory, p, reason, hanswer, rfl⟩
  · rw [hanswer] at h
    cases h

namespace Particle

open Attempt

/-- Both evaluations of a review may fail, and reporting never does. -/
theorem failsOnly_review (o : Objective σ) (p : Particle) : FailsOnly o.FailsWith (p.review o) := by
  apply (o.failsOnly_cost p.position).bind
  intro fitness
  apply FailsOnly.bind
  · apply FailsOnly.of_ok
    intro s
    unfold report
    cases fitness.isFinite <;> exact ⟨(), rfl⟩
  · intro _
    apply FailsOnly.bind
    · exact (o.failsOnly_cost p.personalBest).bind_pure _
    · exact fun updated => .of_ok fun s => ⟨_, rfl⟩

theorem failsWith_of_reviewAll {ps : List Particle} {s : Session σ} {e : SearchError}
    (h : (reviewAll o ps s).1.1 = .error e) : o.FailsWith e := by
  obtain ⟨_, p, _, _, _, hp⟩ := exists_of_reviewAll_eq_error h
  exact failsOnly_review o p _ e hp

end Particle

theorem Leader.failsWith_of_scan {l : Leader} {changed : Bool} {ps : List Particle}
    {s : Session σ} {e : SearchError} (h : (scan o l changed ps s).1.1 = .error e) :
    o.FailsWith e := by
  obtain ⟨_, p, _, _, _, _, hp, _⟩ := exists_of_scan_eq_error h
  exact o.failsOnly_cost p.personalBest _ e hp

namespace Swarm

open Attempt

theorem failsOnly_evaluate (o : Objective σ) :
    FailsOnly o.FailsWith (evaluate o : Course σ γ Unit) :=
  fun _ _ h => Particle.failsWith_of_reviewAll h

theorem failsOnly_refresh (o : Objective σ) :
    FailsOnly o.FailsWith (refresh o : Course σ γ Bool) :=
  fun _ _ h => Leader.failsWith_of_scan h

/-- Once a swarm has its particles, only the objective can make a pass fail. -/
theorem failsOnly_pass (o : Objective σ) :
    FailsOnly o.FailsWith (pass o : Course σ γ Unit) := by
  apply FailsOnly.bind
  · exact .of_ok fun st => ⟨(), rfl⟩
  · intro _
    apply (failsOnly_evaluate o).bind
    intro _
    exact (failsOnly_refresh o).bind_pure _

variable [WordSource γ] {st : Stage σ γ}

/-- New velocities and the move never fail. -/
theorem failsOnly_step (o : Objective σ) :
    FailsOnly o.FailsWith (step o : Course σ γ Unit) := by
  apply (failsOnly_pass o).bind
  intro _
  exact .of_ok fun st => ⟨(), rfl⟩

theorem exists_scatter_eq_ok_iff (hb : st.swarm.bounds.Good) :
    (scatter st).1 = .ok () ↔ (st.swarm.sampling = .uniform → ∀ a, st.swarm.bounds.Scalable a) := by
  rw [scatter_apply, ← hb.exists_build_iff]
  cases Sampler.build st.swarm.bounds st.swarm.sampling with
  | error e => simp
  | ok sampler => simp

/-- A start fails in its pass, because of the objective, or before it, because of an axis. -/
theorem error_of_start (hb : st.swarm.bounds.Good) {e : SearchError}
    (h : (start o st).1 = .error e) :
    o.FailsWith e ∨
      st.swarm.sampling = .uniform ∧
        ∃ a, ¬ st.swarm.bounds.Scalable a ∧ e = st.swarm.bounds.refusal a := by
  rcases bind_fst_eq_error.mp h with h | ⟨-, -, h⟩
  · right
    rw [scatter_apply] at h
    rcases hbuild : Sampler.build st.swarm.bounds st.swarm.sampling with e' | sampler
    · rw [hbuild] at h
      cases h
      exact hb.build_eq_error hbuild
    · rw [hbuild] at h
      cases h
  · exact Or.inl (failsOnly_pass o _ e h)

end Swarm

/-- On good bounds an operation fails because of the objective, or it is a start on an axis that is
    too wide. -/
theorem Operation.error_of_perform [WordSource γ] {st : Stage σ γ} (hb : st.swarm.bounds.Good)
    {op : Operation} {e : SearchError} (h : (op.perform o st).1 = .error e) :
    o.FailsWith e ∨ op = .start ∧ st.swarm.sampling = .uniform ∧
      ∃ a, ¬ st.swarm.bounds.Scalable a ∧ e = st.swarm.bounds.refusal a := by
  cases op with
  | start =>
    rcases Attempt.bind_fst_eq_error.mp h with h | ⟨-, -, h⟩
    · exact (Swarm.error_of_start hb h).imp_right fun hwide => ⟨rfl, hwide⟩
    · cases h
  | step => exact Or.inl ((Swarm.failsOnly_step o).bind_pure _ st e h)
  | evaluate => exact Or.inl ((Swarm.failsOnly_evaluate o).bind_pure _ st e h)
  | refresh => exact Or.inl ((Swarm.failsOnly_refresh o).bind_pure _ st e h)
  | confine | accelerate | advance => cases h

end Errors

/-! ### Runs -/

namespace Optimizer

open Attempt

variable {σ γ : Type} [WordSource γ]

theorem failsOnly_iterate (o : Objective σ) (count first : Nat) (h : History) :
    FailsOnly o.FailsWith (iterate o count first h : Course σ γ History) := by
  induction count generalizing first h with
  | zero => exact .of_ok fun st => ⟨h, rfl⟩
  | succ count ih =>
    rw [iterate_succ]
    apply FailsOnly.bind
    · apply (Swarm.failsOnly_step o).bind
      intro _
      exact .of_ok fun st => ⟨_, rfl⟩
    · exact fun fitness => ih (first + 1) _

/-- A run fails when its start does, or else because of the objective. -/
theorem error_of_course {o : Objective σ} {n : Nat} {st : Stage σ γ} {e : SearchError}
    (h : (course o n st).1 = .error e) : (Swarm.start o st).1 = .error e ∨ o.FailsWith e := by
  refine (bind_fst_eq_error.mp h).imp_right ?_
  rintro ⟨-, -, h⟩
  have hrest : FailsOnly o.FailsWith (do
      let history ← iterate o n 0 (History.empty.observe (← get).swarm.leader.fitness)
      return (⟨(← get).swarm.leader, history⟩ : RunResult) : Course σ γ RunResult) := by
    apply FailsOnly.bind
    · exact .of_ok fun st => ⟨st, rfl⟩
    · intro st
      exact (failsOnly_iterate o n 0 _).bind fun history => .of_ok fun st => ⟨_, rfl⟩
  exact hrest _ e h

/-- A run that comes to its end has built a sampler. -/
theorem not_tooWide_of_runWith_eq_ok {opt : Optimizer σ} {session : Session σ} {g : γ}
    {r : RunResult} (h : (opt.runWith g session).1 = .ok r) (a : Axis) :
    ¬ opt.config.TooWide a := by
  have hb : opt.config.bounds.Good := (Config.validate_eq_ok_iff.mp opt.valid).2.2
  obtain ⟨hstart, -⟩ := course_eq_ok h
  obtain ⟨hscatter, -⟩ := Swarm.start_eq_pass hstart
  rintro ⟨hway, hwide⟩
  exact hwide ((Swarm.exists_scatter_eq_ok_iff hb).mp hscatter hway a)

/-- One cost after the start, and one after each step. -/
theorem size_history_of_runWith_eq_ok {opt : Optimizer σ} {session : Session σ} {g : γ}
    {r : RunResult} (h : (opt.runWith g session).1 = .ok r) :
    r.history.size = opt.config.maxIterations.toNat + 1 := by
  obtain ⟨-, -, -, hhistory⟩ := course_eq_ok h
  rw [← History.length_toList, hhistory, List.length_map, List.length_range]

/-! ### The room for the history -/

theorem checkedAdd_eq_none_iff {a b : UInt64} :
    checkedAdd a b = none ↔ UInt64.size ≤ a.toNat + b.toNat := by
  simp [checkedAdd]

theorem toNat_of_checkedAdd {a b sum : UInt64} (h : checkedAdd a b = some sum) :
    sum.toNat = a.toNat + b.toNat := by
  unfold checkedAdd at h
  split at h
  case isFalse => cases h
  case isTrue hlt =>
    cases h
    rw [UInt64.toNat_add, Nat.mod_eq_of_lt hlt]

/-- The room overflows for a single number of steps, the largest one. -/
theorem historyRoom?_eq_none_iff {c : Config} :
    c.historyRoom? = none ↔ c.maxIterations = 0xffffffffffffffff := by
  rw [Config.historyRoom?, checkedAdd_eq_none_iff, ← UInt64.toNat_inj]
  have hlt := c.maxIterations.toNat_lt_size
  change 18446744073709551616 ≤ c.maxIterations.toNat + 1 ↔
    c.maxIterations.toNat = 18446744073709551615
  change c.maxIterations.toNat < 18446744073709551616 at hlt
  omega

variable {opt : Optimizer σ} {session : Session σ} {g : γ}

theorem launch_eq_overflow_iff :
    opt.launch g session = .overflow ↔ opt.config.maxIterations = 0xffffffffffffffff := by
  rw [← historyRoom?_eq_none_iff, launch]
  cases opt.config.historyRoom? with
  | none => simp
  | some room => simp

/-- A call that returns has counted its room, and it returns what comes of the run. -/
theorem launch_eq_returned_iff {outcome : Except SearchError RunResult} {session' : Session σ} :
    opt.launch g session = .returned outcome session' ↔
      opt.config.maxIterations ≠ 0xffffffffffffffff ∧
        opt.runWith g session = (outcome, session') := by
  rw [Ne, ← historyRoom?_eq_none_iff, launch]
  cases opt.config.historyRoom? with
  | none => simp
  | some room =>
    change Ending.returned (opt.runWith g session).1 (opt.runWith g session).2 = _ ↔ _
    rw [Ending.returned.injEq]
    exact ⟨fun ⟨h₁, h₂⟩ => ⟨Option.some_ne_none _, Prod.ext h₁ h₂⟩,
      fun ⟨_, h⟩ => ⟨congrArg Prod.fst h, congrArg Prod.snd h⟩⟩

/-- The room that a call has counted is the number of costs in its result. -/
theorem exists_room_of_launch_eq_ok {r : RunResult} {session' : Session σ}
    (h : opt.launch g session = .returned (.ok r) session') :
    ∃ room, opt.config.historyRoom? = some room ∧ r.history.size = room.toNat := by
  obtain ⟨hcounted, hr⟩ := launch_eq_returned_iff.mp h
  rw [Ne, ← historyRoom?_eq_none_iff] at hcounted
  obtain ⟨room, hroom⟩ := Option.ne_none_iff_exists'.mp hcounted
  refine ⟨room, hroom, ?_⟩
  rw [size_history_of_runWith_eq_ok (congrArg Prod.fst hr), toNat_of_checkedAdd hroom]
  rfl

/-! ### Calls -/

theorem error_of_perform_performAll {ops : List Operation} {op : Operation} {e : SearchError}
    (h : (Operation.perform opt.objective op
      (Operation.performAll opt.objective ops (stage opt.config session g))).1 = .error e) :
    opt.objective.FailsWith e ∨
      op = .start ∧ ∃ a, opt.config.TooWide a ∧ e = opt.config.bounds.refusal a := by
  have hb : opt.config.bounds.Good := (Config.validate_eq_ok_iff.mp opt.valid).2.2
  let st := Operation.performAll opt.objective ops (stage opt.config session g)
  have hsetup : (stage opt.config session g).SameSetup st :=
    Operation.sameSetup_performAll opt.objective ops _
  have hbounds : st.swarm.bounds = opt.config.bounds := hsetup.bounds
  have hsampling : st.swarm.sampling = opt.config.sampling := congrArg (·.2.2.2) hsetup
  rw [← hbounds] at hb
  rcases Operation.error_of_perform hb h with hobjective | ⟨hop, hway, a, hwide, rfl⟩
  · exact Or.inl hobjective
  · rw [hsampling] at hway
    rw [hbounds] at hwide ⊢
    exact Or.inr ⟨hop, a, ⟨hway, hwide⟩, rfl⟩

theorem error_of_runWith {e : SearchError} (h : (opt.runWith g session).1 = .error e) :
    opt.objective.FailsWith e ∨ ∃ a, opt.config.TooWide a ∧ e = opt.config.bounds.refusal a := by
  have hb : opt.config.bounds.Good := (Config.validate_eq_ok_iff.mp opt.valid).2.2
  rcases error_of_course h with hstart | hobjective
  · rcases Swarm.error_of_start hb hstart with hobjective | ⟨hway, a, hwide, rfl⟩
    · exact Or.inl hobjective
    · exact Or.inr ⟨a, ⟨hway, hwide⟩, rfl⟩
  · exact Or.inl hobjective

/-- For an objective that always answers, nothing else stands in the way of a result. -/
theorem exists_launch_eq_ok_iff (hnever : opt.objective.NeverFails) :
    (∃ r session', opt.launch g session = .returned (.ok r) session') ↔
      (∀ a, ¬ opt.config.TooWide a) ∧ opt.config.maxIterations ≠ 0xffffffffffffffff := by
  constructor
  · rintro ⟨r, session', h⟩
    obtain ⟨hcounted, hr⟩ := launch_eq_returned_iff.mp h
    exact ⟨not_tooWide_of_runWith_eq_ok (congrArg Prod.fst hr), hcounted⟩
  · rintro ⟨hnarrow, hcounted⟩
    rcases hrun : (opt.runWith g session).1 with e | r
    · rcases error_of_runWith hrun with hobjective | ⟨a, hwide, -⟩
      · exact absurd hobjective (hnever.not_failsWith e)
      · exact absurd hwide (hnarrow a)
    · exact ⟨r, _, launch_eq_returned_iff.mpr ⟨hcounted, Prod.ext hrun rfl⟩⟩

/-- **After validation only the objective can fail, the width of an axis, or the count of costs.**
    Every operation, and every run, fails with a reason of the objective or with the ends of an axis
    that is too wide for uniform sampling.  So for an objective that always answers, the call of a
    run returns a result exactly when no axis is too wide and the room for the history can be
    counted, which fails for the largest number of steps only.  The room that was counted is the
    number of costs in the result. -/
theorem launch_fails_only_for_width_or_overflow (opt : Optimizer σ) (session : Session σ) (g : γ) :
    (∀ ops op e,
      (Operation.perform opt.objective op
        (Operation.performAll opt.objective ops (stage opt.config session g))).1 = .error e →
      opt.objective.FailsWith e ∨
        op = .start ∧ ∃ a, opt.config.TooWide a ∧ e = opt.config.bounds.refusal a) ∧
    (∀ e, (opt.runWith g session).1 = .error e →
      opt.objective.FailsWith e ∨ ∃ a, opt.config.TooWide a ∧ e = opt.config.bounds.refusal a) ∧
    (opt.objective.NeverFails →
      ((∃ r session', opt.launch g session = .returned (.ok r) session') ↔
        (∀ a, ¬ opt.config.TooWide a) ∧ opt.config.maxIterations ≠ 0xffffffffffffffff)) ∧
    (opt.launch g session = .overflow ↔ opt.config.maxIterations = 0xffffffffffffffff) ∧
    (∀ outcome session', opt.launch g session = .returned outcome session' →
      opt.runWith g session = (outcome, session')) ∧
    ∀ r session', opt.launch g session = .returned (.ok r) session' →
      ∃ room, opt.config.historyRoom? = some room ∧ r.history.size = room.toNat := by
  refine ⟨?_, ?_, exists_launch_eq_ok_iff, launch_eq_overflow_iff, ?_, ?_⟩
  · intro ops op e h
    exact error_of_perform_performAll h
  · intro e h
    exact error_of_runWith h
  · intro outcome session' h
    exact (launch_eq_returned_iff.mp h).2
  · intro r session' h
    exact exists_room_of_launch_eq_ok h

/-- One particle on a square around the origin, sampled uniformly, and an objective with the same
    value everywhere. -/
def plateau (half : Float) (steps : UInt64) (valid : Config.validate
    { populationSize := 1, maxIterations := steps, bounds := .square (-half) half,
      sampling := .uniform } = .ok ()) : Optimizer Unit :=
  ⟨.ofFunction fun _ => .ok 1, "plateau", _, valid⟩

/-- A square nearly as wide as the largest double is not too wide. -/
theorem plateau_succeeds_when_scalable :
    let opt := plateau 8e307 2 (eq_ok_of_toOption (by decide +kernel))
    opt.objective.NeverFails ∧ (∀ a, ¬ opt.config.TooWide a) ∧
      ∃ r session', opt.launch (Generator.ofWords [0]) ⟨(), #[]⟩ = .returned (.ok r) session' ∧
        r.history.size = 3 := by
  intro opt
  have hnever : opt.objective.NeverFails := fun _ _ => ⟨1, rfl⟩
  have hnarrow : ∀ a, ¬ opt.config.TooWide a := by
    rintro (_ | _) ⟨-, hwide⟩
    · exact hwide (by decide +kernel)
    · exact hwide (by decide +kernel)
  obtain ⟨-, -, hsucceeds, -, -, hcounted⟩ :=
    launch_fails_only_for_width_or_overflow opt ⟨(), #[]⟩ (Generator.ofWords [0])
  obtain ⟨r, session', hr⟩ := (hsucceeds hnever).mpr ⟨hnarrow, by decide⟩
  obtain ⟨room, hroom, hsize⟩ := hcounted r session' hr
  have hthree : room = 3 := (Option.some.inj hroom).symm
  rw [hthree] at hsize
  exact ⟨hnever, hnarrow, r, session', hr, hsize⟩

/-- Two finite ends in the right order are accepted, and the first run on them fails for their
    width.  The largest number of steps is accepted as well, and the call of such a run stops at the
    room for its history. -/
theorem plateau_fails_when_tooWide :
    let wide := plateau 1.7e308 0 (eq_ok_of_toOption (by decide +kernel))
    let long := plateau 1 0xffffffffffffffff (eq_ok_of_toOption (by decide +kernel))
    let g := Generator.ofWords [0]
    wide.objective.NeverFails ∧ long.objective.NeverFails ∧
      wide.launch g ⟨(), #[]⟩ =
        .returned (.error (.invalidBounds .x (-1.7e308) 1.7e308)) ⟨(), #[]⟩ ∧
      long.launch g ⟨(), #[]⟩ = .overflow := by
  intro wide long g
  have houtcome : (wide.runWith g ⟨(), #[]⟩).1 =
      .error (.invalidBounds .x (-1.7e308) 1.7e308) := by decide +kernel
  have hsession : (wide.runWith g ⟨(), #[]⟩).2 = ⟨(), #[]⟩ := by decide +kernel
  exact ⟨fun _ _ => ⟨1, rfl⟩, fun _ _ => ⟨1, rfl⟩,
    launch_eq_returned_iff.mpr ⟨by decide, Prod.ext houtcome hsession⟩,
    launch_eq_overflow_iff.mpr rfl⟩

end Optimizer

end ParticleSwarm
