import Mathlib.Data.Option.Basic
import ParticleSwarm.Command
import ParticleSwarm.Proofs.Benchmark.Spelling
import ParticleSwarm.Proofs.Run.Schedule
import ParticleSwarm.Proofs.Text.Decimals

/-!
# What becomes of a command line

The first three arguments settle everything.  Each of them is missing, stands for a value or stands
for nothing, and the first one that stands for nothing is what the program complains about.  If
there is none, nothing else can go wrong: the configuration is that of the test function with
another number of runs and a seed, which is always accepted, and the test functions have a value
everywhere.
-/

namespace ParticleSwarm

/-- The configuration of a test function is accepted. -/
theorem Config.validate_forBenchmark (b : Benchmark) : (forBenchmark b).validate = .ok () := by
  cases b <;> rfl

theorem Optimizer.ofConfig_of_validate {σ : Type} {c : Config} (h : c.validate = .ok ())
    (o : Objective σ) (name : String) : ofConfig o name c = .ok ⟨o, name, c, h⟩ := by
  unfold ofConfig
  split
  · rfl
  · next e he =>
    rw [h] at he
    cases he

namespace Command

/-! ### Reading the arguments -/

/-- An argument that is given and stands for nothing. -/
def Rejected {α : Type} (standsFor : String → α → Prop) (argument? : Option String) : Prop :=
  ∃ argument, argument? = some argument ∧ ∀ a, ¬ standsFor argument a

theorem Rejected.given {α : Type} {standsFor : String → α → Prop} {argument? : Option String}
    (h : Rejected standsFor argument?) : ∃ argument, argument? = some argument :=
  h.imp fun _ h => h.1

/-- An argument that is not rejected is left out or stands for a value. -/
theorem not_rejected_iff {α : Type} {standsFor : String → α → Prop} {argument? : Option String} :
    ¬ Rejected standsFor argument? ↔ ∃ value?, Option.Rel standsFor argument? value? := by
  constructor
  · intro h
    cases argument? with
    | none => exact ⟨none, .none⟩
    | some argument =>
      by_contra hnone
      exact h ⟨argument, rfl, fun a ha => hnone ⟨some a, .some ha⟩⟩
  · rintro ⟨value?, hrel⟩ ⟨argument, rfl, hnone⟩
    cases hrel with
    | some ha => exact hnone _ ha

theorem ofName_of_rel {argument? : Option String} {b? : Option Benchmark}
    (h : Option.Rel (fun argument b => b.Fits argument) argument? b?) :
    Benchmark.ofName (argument?.getD "eggholder") = .ok (b?.getD .eggholder) := by
  cases h with
  | none => exact Benchmark.ofName_name .eggholder
  | some hfits => exact Benchmark.ofName_eq_ok_iff.mpr hfits

theorem readSetting_of_rel {setting : UInt64 → Setting}
    {failure : String → Text.UnsignedError → Failure} {c : Config} {argument? : Option String}
    {value? : Option UInt64} (h : Option.Rel Text.Denotes argument? value?) :
    readSetting argument? setting failure c = .ok (value?.elim c fun v => c.set (setting v)) := by
  cases h with
  | none => rfl
  | some hdenotes => simp [readSetting, Text.readUnsigned_eq_ok_iff.mpr hdenotes]

/-- A text that denotes no number is refused for some cause, which the complaint names. -/
theorem exists_readSetting_eq_error {argument : String} (h : ∀ n, ¬ Text.Denotes argument n) :
    ∃ cause, Text.readUnsigned argument = .error cause ∧ ∀ setting failure c,
      readSetting (some argument) setting failure c = .error (failure argument cause) := by
  rcases hread : Text.readUnsigned argument with cause | n
  · exact ⟨cause, rfl, fun _ _ _ => by simp [readSetting, hread]⟩
  · exact absurd (Text.readUnsigned_eq_ok_iff.mp hread) (h n)

/-- The values of the first three arguments, as far as they are given. -/
structure Reading where
  benchmark? : Option Benchmark
  numRuns? : Option UInt64
  seed? : Option UInt64

namespace Reading

/-- Each argument that is given stands for its value, and only missing ones have none. -/
structure IsOf (r : Reading) (arguments : List String) : Prop where
  benchmark : Option.Rel (fun argument b => b.Fits argument) arguments[0]? r.benchmark?
  numRuns : Option.Rel Text.Denotes arguments[1]? r.numRuns?
  seed : Option.Rel Text.Denotes arguments[2]? r.seed?

def benchmark (r : Reading) : Benchmark := r.benchmark?.getD .eggholder

def config (r : Reading) : Config :=
  let c := Config.forBenchmark r.benchmark
  { c with numRuns := r.numRuns?.getD c.numRuns, seed := r.seed? }

theorem validate_config (r : Reading) : r.config.validate = .ok () :=
  Config.validate_forBenchmark r.benchmark

def optimizer (r : Reading) : Optimizer Unit where
  objective := .ofFunction fun p => .ok (r.benchmark.value p)
  name := r.benchmark.name
  config := r.config
  valid := r.validate_config

/-- The batch cannot fail, whatever the generators are. -/
theorem exists_runMany_eq_ok (r : Reading) (entropy : Nat → UInt64) :
    ∃ summary, (r.optimizer.runMany entropy ⟨(), #[]⟩).1 = .ok summary := by
  have hbuild : Sampler.build r.config.bounds r.config.sampling =
      .ok (.splitFromZero r.config.bounds) := rfl
  exact r.optimizer.exists_batch_eq_ok hbuild (fun _ p => ⟨r.benchmark.value p, rfl⟩) _ _

/-- With a seed the batch does not depend on entropy. -/
theorem runMany_of_seed {r : Reading} (hseed : r.seed? ≠ none) (entropy entropy' : Nat → UInt64) :
    r.optimizer.runMany entropy = r.optimizer.runMany entropy' := by
  obtain ⟨seed, hsome⟩ := Option.ne_none_iff_exists'.mp hseed
  have hgenerators : r.config.generatorFor entropy = r.config.generatorFor entropy' := by
    funext run
    simp only [Config.generatorFor, config, hsome]
  exact congrArg r.optimizer.batch hgenerators

theorem summary_of_runMany {r : Reading} {entropy : Nat → UInt64} {summary : Summary}
    (h : (r.optimizer.runMany entropy ⟨(), #[]⟩).1 = .ok summary) :
    Request.summary ⟨r.benchmark, r.config⟩ entropy = .ok summary := by
  rw [Request.summary, Optimizer.ofConfig_of_validate r.validate_config]
  change ((r.optimizer.runMany entropy ⟨(), #[]⟩).1).mapError Failure.search = .ok summary
  rw [h]
  rfl

variable {r : Reading} {arguments : List String}

theorem IsOf.ofArguments (h : r.IsOf arguments) :
    Request.ofArguments arguments = .ok ⟨r.benchmark, r.config⟩ := by
  simp only [Request.ofArguments, ofName_of_rel h.benchmark, Except.mapError,
    readSetting_of_rel h.numRuns, readSetting_of_rel h.seed, bind, Except.bind]
  rcases r with ⟨_, _ | _, _ | _⟩ <;> rfl

end Reading

/-! ### Refusals -/

section Refusals

variable (arguments : List String)

def Misnamed : Prop := Rejected (fun argument (b : Benchmark) => b.Fits argument) arguments[0]?

def Miscounted : Prop := Rejected Text.Denotes arguments[1]?

def Misseeded : Prop := Rejected Text.Denotes arguments[2]?

variable {arguments} {argument : String}

theorem ofArguments_of_misnamed (h : Misnamed arguments) (hgiven : arguments[0]? = some argument) :
    Request.ofArguments arguments = .error (.search (.unknownObjective argument)) := by
  obtain ⟨a, ha, hnone⟩ := h
  rw [hgiven, Option.some_inj] at ha
  simp only [Request.ofArguments, hgiven, ha, Option.getD_some,
    Benchmark.ofName_of_not_fits hnone]
  rfl

theorem ofArguments_of_miscounted (hname : ¬ Misnamed arguments) (h : Miscounted arguments)
    (hgiven : arguments[1]? = some argument) :
    ∃ cause, Text.readUnsigned argument = .error cause ∧
      Request.ofArguments arguments = .error (.runCount argument cause) := by
  obtain ⟨b?, hb⟩ := not_rejected_iff.mp hname
  obtain ⟨a, ha, hnone⟩ := h
  rw [hgiven, Option.some_inj] at ha
  obtain ⟨cause, hcause, hread⟩ := exists_readSetting_eq_error hnone
  refine ⟨cause, ha ▸ hcause, ?_⟩
  simp only [Request.ofArguments, ofName_of_rel hb, Except.mapError, hgiven, ha, hread, bind,
    Except.bind]

theorem ofArguments_of_misseeded (hname : ¬ Misnamed arguments) (hcount : ¬ Miscounted arguments)
    (h : Misseeded arguments) (hgiven : arguments[2]? = some argument) :
    ∃ cause, Text.readUnsigned argument = .error cause ∧
      Request.ofArguments arguments = .error (.seed argument cause) := by
  obtain ⟨b?, hb⟩ := not_rejected_iff.mp hname
  obtain ⟨n?, hn⟩ := not_rejected_iff.mp hcount
  obtain ⟨a, ha, hnone⟩ := h
  rw [hgiven, Option.some_inj] at ha
  obtain ⟨cause, hcause, hread⟩ := exists_readSetting_eq_error hnone
  refine ⟨cause, ha ▸ hcause, ?_⟩
  simp only [Request.ofArguments, ofName_of_rel hb, Except.mapError, readSetting_of_rel hn, hgiven,
    ha, hread, bind, Except.bind]

def Refused (arguments : List String) : Prop :=
  Misnamed arguments ∨ Miscounted arguments ∨ Misseeded arguments

/-- Arguments that are not refused have a reading. -/
theorem exists_isOf_of_not_refused (h : ¬ Refused arguments) : ∃ r : Reading, r.IsOf arguments := by
  simp only [Refused, not_or, Misnamed, Miscounted, Misseeded, not_rejected_iff] at h
  obtain ⟨⟨b?, hb⟩, ⟨n?, hn⟩, s?, hs⟩ := h
  exact ⟨⟨b?, n?, s?⟩, hb, hn, hs⟩

/-- An argument that stands for nothing leads to a failure, the first one of several. -/
theorem exists_failure_of_refused (h : Refused arguments) :
    ∃ failure, Request.ofArguments arguments = .error failure := by
  by_cases hname : Misnamed arguments
  · obtain ⟨a, ha⟩ := hname.given
    exact ⟨_, ofArguments_of_misnamed hname ha⟩
  by_cases hcount : Miscounted arguments
  · obtain ⟨a, ha⟩ := hcount.given
    obtain ⟨cause, -, hfails⟩ := ofArguments_of_miscounted hname hcount ha
    exact ⟨_, hfails⟩
  · have hseed : Misseeded arguments := (h.resolve_left hname).resolve_left hcount
    obtain ⟨a, ha⟩ := hseed.given
    obtain ⟨cause, -, hfails⟩ := ofArguments_of_misseeded hname hcount hseed ha
    exact ⟨_, hfails⟩

end Refusals

/-! ### Responses -/

theorem respond_of_error {entropy : Nat → UInt64} {arguments : List String} {failure : Failure}
    (h : Request.ofArguments arguments = .error failure) :
    respond entropy arguments = ⟨1, "", "Error: " ++ failure.message ++ "\n"⟩ := by
  rw [respond, h]
  rfl

theorem Reading.respond_of_runMany {entropy : Nat → UInt64} {arguments : List String} {r : Reading}
    {summary : Summary} (h : r.IsOf arguments)
    (hok : (r.optimizer.runMany entropy ⟨(), #[]⟩).1 = .ok summary) :
    respond entropy arguments = ⟨0, summary.text ++ "\n", ""⟩ := by
  rw [respond, h.ofArguments]
  change Response.ofOutcome (Request.summary ⟨r.benchmark, r.config⟩ entropy) = _
  rw [summary_of_runMany hok]
  rfl

/-- Only the first three arguments are looked at. -/
theorem ofArguments_take (arguments : List String) :
    Request.ofArguments (arguments.take 3) = Request.ofArguments arguments := by
  have hkept (i : Nat) (hi : i < 3) : (arguments.take 3)[i]? = arguments[i]? :=
    List.getElem?_take_of_lt hi
  simp only [Request.ofArguments, hkept 0 (by decide), hkept 1 (by decide), hkept 2 (by decide)]

/-- **What becomes of a command line.**  The program ends with exit code 1 and no output exactly if
    one of the first three arguments is given and stands for nothing, and its error is that of the
    first such argument, which it quotes.  Otherwise the arguments have values, the batch that they
    ask for succeeds, and its report is printed; if there is a seed, the batch does not depend on
    entropy.  Arguments behind the third change nothing. -/
theorem respond_settled_by_arguments (entropy : Nat → UInt64) (arguments : List String) :
    let answer := respond entropy arguments
    (answer.exitCode = 1 ∧ answer.output = "" ↔ Refused arguments) ∧
    (∀ a, Misnamed arguments → arguments[0]? = some a →
      answer.errors = "Error: Unknown objective function `" ++ a ++ "`\n") ∧
    (∀ a, ¬ Misnamed arguments → Miscounted arguments → arguments[1]? = some a →
      ∃ cause, Text.readUnsigned a = .error cause ∧ answer.errors =
        "Error: invalid run count `" ++ a ++ "`\n\nCaused by:\n    " ++ cause.message ++ "\n") ∧
    (∀ a, ¬ Misnamed arguments → ¬ Miscounted arguments → Misseeded arguments →
      arguments[2]? = some a → ∃ cause, Text.readUnsigned a = .error cause ∧ answer.errors =
        "Error: invalid seed `" ++ a ++ "`\n\nCaused by:\n    " ++ cause.message ++ "\n") ∧
    (¬ Refused arguments → ∃ r : Reading, r.IsOf arguments) ∧
    (∀ r : Reading, r.IsOf arguments → ∃ summary,
      (r.optimizer.runMany entropy ⟨(), #[]⟩).1 = .ok summary ∧
      answer = ⟨0, summary.text ++ "\n", ""⟩ ∧
      (r.seed? ≠ none → ∀ entropy',
        (r.optimizer.runMany entropy' ⟨(), #[]⟩).1 = .ok summary)) ∧
    ∀ arguments' : List String, arguments'.take 3 = arguments.take 3 →
      respond entropy arguments' = answer := by
  intro answer
  refine ⟨?_, ?_, ?_, ?_, exists_isOf_of_not_refused, ?_, ?_⟩
  · constructor
    · rintro ⟨hexit, -⟩
      by_contra hread
      obtain ⟨r, hr⟩ := exists_isOf_of_not_refused hread
      obtain ⟨summary, hok⟩ := r.exists_runMany_eq_ok entropy
      rw [show answer = _ from Reading.respond_of_runMany hr hok] at hexit
      exact absurd hexit (by decide : (0 : UInt8) ≠ 1)
    · intro hrefused
      obtain ⟨failure, hfailure⟩ := exists_failure_of_refused hrefused
      rw [show answer = _ from respond_of_error hfailure]
      exact ⟨rfl, rfl⟩
  · intro a h hgiven
    have hmessage : (Failure.search (.unknownObjective a)).message =
        "Unknown objective function `" ++ a ++ "`" := rfl
    rw [show answer = _ from respond_of_error (ofArguments_of_misnamed h hgiven), hmessage]
    simp [← String.toList_inj]
  · intro a hname h hgiven
    obtain ⟨cause, hcause, hfailure⟩ := ofArguments_of_miscounted hname h hgiven
    refine ⟨cause, hcause, ?_⟩
    rw [show answer = _ from respond_of_error hfailure]
    simp [Failure.message, complaint, ← String.toList_inj]
  · intro a hname hcount h hgiven
    obtain ⟨cause, hcause, hfailure⟩ := ofArguments_of_misseeded hname hcount h hgiven
    refine ⟨cause, hcause, ?_⟩
    rw [show answer = _ from respond_of_error hfailure]
    simp [Failure.message, complaint, ← String.toList_inj]
  · intro r hr
    obtain ⟨summary, hok⟩ := r.exists_runMany_eq_ok entropy
    have hanswer : answer = _ := Reading.respond_of_runMany hr hok
    refine ⟨summary, hok, hanswer, ?_⟩
    intro hseed entropy'
    have hsame := Reading.runMany_of_seed hseed entropy' entropy
    exact (congrArg (fun batch => (batch ⟨(), #[]⟩).1) hsame).trans hok
  · intro arguments' hsame
    have hrequest : Request.ofArguments arguments' = Request.ofArguments arguments := by
      rw [← ofArguments_take, hsame, ofArguments_take]
    simp only [answer, respond, hrequest]

/-- No runs with a seed, which a fourth argument does not change, and a run count with a sign in
    front of it, which is refused before the seed is looked at. -/
theorem respond_crossInTray :
    let answer : Response :=
      ⟨0, "\nObjective: cross-in-tray\n\nThe PSO was executed 0 times\n", ""⟩
    respond (fun _ => 0) ["Cross_In Tray", "+0", "7"] = answer ∧
    respond (fun _ => 0) ["Cross_In Tray", "+0", "7", "-x"] = answer ∧
    (respond (fun _ => 0) ["Booth", "-1", "?"]).errors =
      "Error: invalid run count `-1`\n\nCaused by:\n    invalid digit found in string\n" := by
  intro answer
  let r : Reading := ⟨some .crossInTray, some 0, some 7⟩
  have hr : r.IsOf ["Cross_In Tray", "+0", "7"] := by
    refine ⟨.some ?_, .some ?_, .some ?_⟩
    · exact Benchmark.ofName_eq_ok_iff.mp (by decide +kernel)
    · exact Text.readUnsigned_eq_ok_iff.mp rfl
    · exact Text.readUnsigned_eq_ok_iff.mp rfl
  have hbatch : (r.optimizer.runMany (fun _ => 0) ⟨(), #[]⟩).1 = .ok ⟨"cross-in-tray", []⟩ := rfl
  have htext : Summary.text ⟨"cross-in-tray", []⟩ ++ "\n" = answer.output := by decide +kernel
  obtain ⟨-, -, -, -, -, hreport, hmore⟩ :=
    respond_settled_by_arguments (fun _ => 0) ["Cross_In Tray", "+0", "7"]
  obtain ⟨summary, hok, hanswer, -⟩ := hreport r hr
  have hsummary : summary = ⟨"cross-in-tray", []⟩ := Except.ok.inj (hok.symm.trans hbatch)
  rw [hsummary, htext] at hanswer
  refine ⟨hanswer, (hmore _ rfl).trans hanswer, ?_⟩
  obtain ⟨-, -, hcount, -⟩ := respond_settled_by_arguments (fun _ => 0) ["Booth", "-1", "?"]
  have hname : ¬ Misnamed ["Booth", "-1", "?"] :=
    not_rejected_iff.mpr ⟨some .booth, .some (Benchmark.ofName_eq_ok_iff.mp (by decide +kernel))⟩
  have hread : Text.readUnsigned "-1" = .error .invalidDigit := rfl
  have hnone : ∀ n, ¬ Text.Denotes "-1" n := by
    intro n hn
    rw [← Text.readUnsigned_eq_ok_iff, hread] at hn
    cases hn
  obtain ⟨cause, hcause, herrors⟩ := hcount "-1" hname ⟨"-1", rfl, hnone⟩ rfl
  rw [hread] at hcause
  cases hcause
  exact herrors

end Command

end ParticleSwarm
