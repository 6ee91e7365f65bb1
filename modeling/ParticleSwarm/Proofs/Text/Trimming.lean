import Mathlib.Data.List.DropRight
import ParticleSwarm.Text.Blank

/-!
# Text without the blanks at its ends

What is left of a text when the blanks at both ends are taken away is told by a relation between
the two texts, and `trimmed` computes the only text in that relation with a given one.
-/

namespace ParticleSwarm.Text

def BeginsVisibly (t : List Char) : Prop := ∀ c ∈ t.head?, ¬ isBlank c

/-- The text is `rest` between two stretches of blanks, and `rest` has no blank at its ends. -/
structure Trims (text rest : List Char) : Prop where
  padded : ∃ before after, text = before ++ rest ++ after ∧
    (∀ c ∈ before, isBlank c) ∧ ∀ c ∈ after, isBlank c
  front : BeginsVisibly rest
  back : BeginsVisibly rest.reverse

theorem beginsVisibly_dropWhile (s : List Char) : BeginsVisibly (s.dropWhile isBlank) := by
  intro c hc
  have hnot := List.head?_dropWhile_not isBlank s
  rw [Option.mem_def.mp hc] at hnot
  exact Bool.eq_false_iff.mp hnot

theorem BeginsVisibly.of_append {t rest : List Char} (h : BeginsVisibly (t ++ rest)) :
    BeginsVisibly t := by
  intro c hc
  exact h c (by simp [List.head?_append, Option.mem_def.mp hc])

/-- Blanks are dropped up to a text that begins with something else. -/
theorem dropWhile_isBlank_append {before rest : List Char} (hbefore : ∀ c ∈ before, isBlank c)
    (hrest : BeginsVisibly rest) : (before ++ rest).dropWhile isBlank = rest := by
  rw [List.dropWhile_append_of_pos hbefore]
  cases rest with
  | nil => rfl
  | cons c rest => exact List.dropWhile_cons_of_neg (hrest c rfl)

theorem trims_trimmed (s : List Char) : Trims s (trimmed s) := by
  let unled := s.dropWhile isBlank
  have hunled : trimmed s ++ unled.rtakeWhile isBlank = unled := List.rdropWhile_append_rtakeWhile
  have hs : s.takeWhile isBlank ++ unled = s := List.takeWhile_append_dropWhile
  refine ⟨⟨s.takeWhile isBlank, unled.rtakeWhile isBlank, ?_, ?_, ?_⟩, ?_, ?_⟩
  · rw [List.append_assoc, hunled, hs]
  · exact fun c => List.mem_takeWhile_imp
  · exact fun c => List.mem_rtakeWhile_imp
  · have hvisible : BeginsVisibly unled := beginsVisibly_dropWhile s
    rw [← hunled] at hvisible
    exact hvisible.of_append
  · rw [trimmed, List.reverse_reverse]
    exact beginsVisibly_dropWhile _

theorem trimmed_of_trims {s t : List Char} (h : Trims s t) : trimmed s = t := by
  obtain ⟨⟨before, after, rfl, hbefore, hafter⟩, hfront, hback⟩ := h
  have hblank : ∀ c ∈ after.reverse, isBlank c := fun c hc => hafter c (List.mem_reverse.mp hc)
  by_cases ht : t = []
  · -- nothing stops the first drop, which takes both stretches of blanks away
    subst ht
    have hall : ∀ c ∈ before ++ [] ++ after, isBlank c := by
      simpa [or_imp, forall_and] using ⟨hbefore, hafter⟩
    rw [trimmed, List.dropWhile_eq_nil_iff.mpr hall]
    rfl
  · have hvisible : BeginsVisibly (t ++ after) := by
      intro c hc
      exact hfront c (by simpa [List.head?_append_of_ne_nil _ ht] using hc)
    rw [trimmed, List.append_assoc, dropWhile_isBlank_append hbefore hvisible,
      List.reverse_append, dropWhile_isBlank_append hblank hback, List.reverse_reverse]

/-- What is left between the blanks is one text, and `trimmed` computes it. -/
theorem trims_iff {s t : List Char} : Trims s t ↔ trimmed s = t := by
  refine ⟨trimmed_of_trims, ?_⟩
  rintro rfl
  exact trims_trimmed s

end ParticleSwarm.Text
