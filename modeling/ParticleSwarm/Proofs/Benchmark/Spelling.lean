import Mathlib
import ParticleSwarm.Benchmark.Name
import ParticleSwarm.Proofs.Text.Trimming

/-!
# How the name of a test function may be written

A grammar of written names that says what may stand for each character of a canonical name, without
the rewriting that `ofName` does.  `ofName` accepts exactly what the grammar allows: it answers with
the one test function that a text fits, and quotes a text that fits none.
-/

namespace ParticleSwarm.Benchmark

open Text

/-- What may be written for a character of a canonical name: a hyphen, an underscore or a space for
    a hyphen, and the letter in either case for a letter. -/
def StandsFor (written c : Char) : Prop :=
  if c = '-' then written ∈ ['-', '_', ' '] else written = c ∨ written = c.toUpper

instance (written c : Char) : Decidable (StandsFor written c) :=
  inferInstanceAs <| Decidable <|
    if c = '-' then written ∈ ['-', '_', ' '] else written = c ∨ written = c.toUpper

/-- A text that spells the name of a test function, with all the separators or with none. -/
inductive Spells (b : Benchmark) (text : List Char) : Prop where
  | separated (h : List.Forall₂ StandsFor text b.letters)
  | joined (h : List.Forall₂ StandsFor text b.joinedLetters)

def Fits (b : Benchmark) (written : String) : Prop :=
  ∃ text, Trims written.toList text ∧ b.Spells text

/-! ### Characters -/

def IsPlain (c : Char) : Prop := c = '-' ∨ c.isLower

theorem isPlain_of_mem_letters {b : Benchmark} : ∀ c ∈ b.letters, IsPlain c := by
  cases b <;> simp [letters, name, IsPlain]

theorem isPlain_of_mem_joinedLetters {b : Benchmark} : ∀ c ∈ b.joinedLetters, IsPlain c :=
  fun c hc => isPlain_of_mem_letters c (List.mem_of_mem_filter hc)

theorem toLower_eq_iff {c d : Char} (hd : ¬ d.isUpper) :
    c.toLower = d ↔ c = d ∨ c = d.toUpper := by
  constructor
  · rintro rfl
    by_cases hc : c.isUpper
    · right
      rw [Char.toUpper_toLower_eq_toUpper,
        Char.toUpper_eq_of_not_isLower (Char.not_isLower_of_isUpper hc)]
    · exact .inl (Char.toLower_eq_of_not_isUpper hc).symm
  · have hsame : d.toLower = d := Char.toLower_eq_of_not_isUpper hd
    rintro (rfl | rfl)
    · exact hsame
    · rw [Char.toLower_toUpper_eq_toLower, hsame]

theorem asHyphen_eq_hyphen_iff {c : Char} : asHyphen c = '-' ↔ c ∈ ['-', '_', ' '] := by
  by_cases hc : c = '_' ∨ c = ' '
  · simp [asHyphen, hc]
  · simp [asHyphen, hc]

theorem asHyphen_eq_iff {c d : Char} (hd : d.isLower) : asHyphen c = d ↔ c = d := by
  by_cases hc : c = '_' ∨ c = ' '
  · have hne : '-' ≠ d ∧ c ≠ d := by
      constructor
      · rintro rfl
        exact absurd hd (by decide)
      · rintro rfl
        rcases hc with rfl | rfl <;> exact absurd hd (by decide)
    simp [asHyphen, hc, hne]
  · simp [asHyphen, hc]

/-- The rewriting turns into a plain character exactly what may stand for it. -/
theorem asHyphen_toLower_eq_iff {c d : Char} (hd : IsPlain d) :
    asHyphen c.toLower = d ↔ StandsFor c d := by
  rcases hd with rfl | hd
  · have hkept (e : Char) (hupper : ¬ e.isUpper) (he : e.toUpper = e) : c.toLower = e ↔ c = e := by
      rw [toLower_eq_iff hupper, he, or_self]
    simp only [asHyphen_eq_hyphen_iff, List.mem_cons, List.not_mem_nil, or_false, StandsFor,
      if_true, hkept '-' (by decide) rfl, hkept '_' (by decide) rfl, hkept ' ' (by decide) rfl]
  · have hne : d ≠ '-' := by
      rintro rfl
      exact absurd hd (by decide)
    rw [asHyphen_eq_iff hd, toLower_eq_iff (Char.not_isUpper_of_isLower hd), StandsFor, if_neg hne]

/-! ### Names -/

/-- Lowering the case and turning separators into hyphens undoes the liberties of a spelling. -/
theorem map_eq_iff_standsFor {text word : List Char} (hword : ∀ c ∈ word, IsPlain c) :
    text.map (fun c => asHyphen c.toLower) = word ↔ List.Forall₂ StandsFor text word := by
  induction text generalizing word with
  | nil => simp [eq_comm]
  | cons c text ih =>
    cases word with
    | nil => simp
    | cons d word =>
      have hd : IsPlain d := hword d List.mem_cons_self
      have hrest : ∀ c ∈ word, IsPlain c := fun c hc => hword c (List.mem_cons_of_mem d hc)
      rw [List.map_cons, List.cons_eq_cons, asHyphen_toLower_eq_iff hd, ih hrest,
        List.forall₂_cons]

/-- The rewritten text calls a test function exactly if the text spells its name. -/
theorem isCalled_map_iff {b : Benchmark} {text : List Char} :
    b.isCalled (text.map fun c => asHyphen c.toLower) ↔ b.Spells text := by
  rw [isCalled, Bool.or_eq_true, beq_iff_eq, beq_iff_eq, eq_comm,
    map_eq_iff_standsFor isPlain_of_mem_letters, eq_comm (a := b.joinedLetters),
    map_eq_iff_standsFor isPlain_of_mem_joinedLetters]
  constructor
  · rintro (h | h)
    · exact .separated h
    · exact .joined h
  · rintro (h | h)
    · exact .inl h
    · exact .inr h

/-- The names that are read are described without the reader: blanks around a spelling. -/
theorem fits_iff {b : Benchmark} {written : String} :
    b.Fits written ↔ b.isCalled (normalized written.toList) := by
  rw [normalized, isCalled_map_iff]
  constructor
  · rintro ⟨text, htrims, hspells⟩
    rwa [trims_iff.mp htrims]
  · exact fun hspells => ⟨_, trims_trimmed _, hspells⟩

/-- Names differ from each other, also without their hyphens. -/
theorem eq_of_isCalled {b b' : Benchmark} {normal : List Char} (h : b.isCalled normal)
    (h' : b'.isCalled normal) : b = b' := by
  have hapart : ∀ c ∈ all, ∀ c' ∈ all, ∀ word ∈ [c.letters, c.joinedLetters],
      c'.isCalled word → c = c' := by decide
  rw [isCalled, Bool.or_eq_true, beq_iff_eq, beq_iff_eq] at h
  have hword : normal ∈ [b.letters, b.joinedLetters] := by
    rcases h with rfl | rfl
    · exact List.mem_cons_self
    · exact List.mem_cons_of_mem _ List.mem_cons_self
  exact hapart b (mem_all b) b' (mem_all b') normal hword h'

theorem ofName_eq_ok_iff {b : Benchmark} {written : String} :
    ofName written = .ok b ↔ b.Fits written := by
  rw [fits_iff, ofName]
  constructor
  · intro h
    split at h
    · next found hfound =>
      cases h
      have hcalled := List.find?_some hfound
      exact hcalled
    · cases h
  · intro h
    have hfound : (all.find? fun b => b.isCalled (normalized written.toList)).isSome :=
      List.find?_isSome.mpr ⟨b, mem_all b, h⟩
    obtain ⟨b', hb'⟩ := Option.isSome_iff_exists.mp hfound
    have hcalled := List.find?_some hb'
    rw [hb', eq_of_isCalled h hcalled]

/-- A name that fits no test function is quoted as it was given. -/
theorem ofName_of_not_fits {written : String} (h : ∀ b : Benchmark, ¬ b.Fits written) :
    ofName written = .error (.unknownObjective written) := by
  rw [ofName]
  split
  · next b hfound =>
    have hcalled := List.find?_some hfound
    exact absurd (fits_iff.mpr hcalled) (h b)
  · rfl

/-! ### Padding -/

theorem not_isBlank_of_isAlpha {c : Char} (h : c.isAlpha) : ¬ isBlank c := by
  simp only [Char.isAlpha, Char.isUpper, Char.isLower, ge_iff_le, UInt32.le_iff_toNat_le,
    Char.toNat_val, Bool.or_eq_true, Bool.and_eq_true, decide_eq_true_eq, Char.reduceVal,
    UInt32.reduceToNat] at h
  simp only [isBlank, blankRanges, List.any_cons, List.any_nil, Bool.or_eq_true,
    decide_eq_true_eq, Bool.false_eq_true, or_false]
  omega

theorem not_isBlank_of_standsFor {c d : Char} (hd : d.isLower) (h : StandsFor c d) :
    ¬ isBlank c := by
  have halpha : d.isAlpha := by simp [Char.isAlpha, hd]
  have hlower := (asHyphen_toLower_eq_iff (.inr hd)).mpr h
  rw [asHyphen_eq_iff hd] at hlower
  apply not_isBlank_of_isAlpha
  rw [← Char.isAlpha_toLower_eq_isAlpha, hlower, halpha]

/-- A text that stands for a word with a letter in front does not begin with a blank. -/
theorem beginsVisibly_of_standsFor {text word : List Char} (h : List.Forall₂ StandsFor text word)
    (hword : ∀ c ∈ word.head?, c.isLower) : BeginsVisibly text := by
  cases h with
  | nil => exact fun c hc => by cases hc
  | cons hfirst _ =>
    intro c hc
    cases hc
    exact not_isBlank_of_standsFor (hword _ rfl) hfirst

/-- Names begin and end with a letter. -/
theorem isLower_ends (b : Benchmark) : ∀ word ∈ [b.letters, b.joinedLetters],
    (∀ c ∈ word.head?, c.isLower) ∧ ∀ c ∈ word.reverse.head?, c.isLower := by
  cases b <;> simp [letters, joinedLetters, name]

/-- Blanks around a spelling are trimmed, and nothing else. -/
theorem Spells.trims {b : Benchmark} {before text after : List Char} (h : b.Spells text)
    (hbefore : ∀ c ∈ before, isBlank c) (hafter : ∀ c ∈ after, isBlank c) :
    Trims (before ++ text ++ after) text := by
  obtain ⟨word, hmem, hword⟩ : ∃ word ∈ [b.letters, b.joinedLetters],
      List.Forall₂ StandsFor text word := by
    cases h with
    | separated h => exact ⟨_, List.mem_cons_self, h⟩
    | joined h => exact ⟨_, List.mem_cons_of_mem _ List.mem_cons_self, h⟩
  obtain ⟨hhead, hlast⟩ := isLower_ends b word hmem
  exact ⟨⟨before, after, rfl, hbefore, hafter⟩, beginsVisibly_of_standsFor hword hhead,
    beginsVisibly_of_standsFor (List.forall₂_reverse_iff.mpr hword) hlast⟩

theorem spells_letters (b : Benchmark) : b.Spells b.letters := by
  refine .separated (List.forall₂_same.mpr ?_)
  intro c _
  by_cases hc : c = '-' <;> simp [StandsFor, hc]

/-- The canonical name stands for its test function. -/
theorem ofName_name (b : Benchmark) : ofName b.name = .ok b := by
  have htrims : Trims ([] ++ b.letters ++ []) b.letters :=
    (spells_letters b).trims (fun c hc => by cases hc) (fun c hc => by cases hc)
  rw [List.nil_append, List.append_nil] at htrims
  exact ofName_eq_ok_iff.mpr ⟨b.letters, htrims, spells_letters b⟩

/-- **The names that are accepted are the spellings between blanks.**  A written name is read as a
    test function exactly if it fits, it fits at most one, and a name that fits none is quoted in
    the error as it was given.  The canonical name, as which a test function is also displayed, is
    read back, and so is every other spelling of it between blanks. -/
theorem ofName_accepts_spellings (written : String) :
    (∀ b, ofName written = .ok b ↔ b.Fits written) ∧
    (∀ b b' : Benchmark, b.Fits written → b'.Fits written → b = b') ∧
    ((∀ b : Benchmark, ¬ b.Fits written) → ofName written = .error (.unknownObjective written)) ∧
    ∀ b : Benchmark, ofName b.name = .ok b ∧ ∀ before text after : List Char, b.Spells text →
      (∀ c ∈ before, isBlank c) → (∀ c ∈ after, isBlank c) →
        ofName (.ofList (before ++ text ++ after)) = .ok b := by
  refine ⟨fun b => ofName_eq_ok_iff, ?_, ofName_of_not_fits, ?_⟩
  · intro b b' h h'
    exact eq_of_isCalled (fits_iff.mp h) (fits_iff.mp h')
  · intro b
    refine ⟨ofName_name b, ?_⟩
    intro before text after htext hbefore hafter
    refine ofName_eq_ok_iff.mpr ⟨text, ?_, htext⟩
    rw [String.toList_ofList]
    exact htext.trims hbefore hafter

/-- A name with separators of two kinds, in mixed case, between an em space and an ideographic
    space; and one with one separator of two, which is no name. -/
theorem ofName_crossInTray :
    crossInTray.Spells "Cross_In TRAY".toList ∧
    ofName "\u2003Cross_In TRAY\u3000" = .ok crossInTray ∧
    (∀ b : Benchmark, b.Fits "\u2003Cross_In TRAY\u3000" → b = crossInTray) ∧
    ofName " Cross-inTray" = .error (.unknownObjective " Cross-inTray") := by
  have hspells : crossInTray.Spells "Cross_In TRAY".toList := .separated (by decide)
  obtain ⟨hok, hone, -, hpadded⟩ := ofName_accepts_spellings "\u2003Cross_In TRAY\u3000"
  have hread := (hpadded crossInTray).2 ['\u2003'] _ ['\u3000'] hspells
    (by simp [isBlank, blankRanges]) (by simp [isBlank, blankRanges])
  refine ⟨hspells, hread, fun b hb => hone b crossInTray hb ((hok _).mp hread), ?_⟩
  obtain ⟨-, -, hquoted, -⟩ := ofName_accepts_spellings " Cross-inTray"
  apply hquoted
  intro b hb
  rw [fits_iff] at hb
  revert hb
  cases b <;> decide +kernel

end ParticleSwarm.Benchmark
