import Comfort.Text.Blank
import Mathlib.Data.List.DropRight

/-!
Trimming at the ends of a text.

`dropEndWhile` is the library's `rdropWhile`, and what it drops is the library's `rtakeWhile`.  A
solid text ends in a character that is no blank, so what follows it is all that is trimmed at the
end of the two together.
-/

namespace Comfort
namespace Text

theorem mem_of_mem_dropEndWhile {p : Char → Bool} {cs : List Char} {c : Char}
    (h : c ∈ dropEndWhile p cs) : c ∈ cs :=
  (List.rdropWhile_prefix p cs).mem h

theorem dropEndWhile_append_of_all {p : Char → Bool} {a b : List Char} (h : ∀ c ∈ b, p c = true) :
    dropEndWhile p (a ++ b) = dropEndWhile p a := by
  unfold dropEndWhile
  rw [List.reverse_append, List.dropWhile_append_of_pos fun c hc => h c (List.mem_reverse.1 hc)]

theorem dropEndWhile_append_of_last {p : Char → Bool} {a b : List Char} {c : Char}
    (hc : p c = false) : dropEndWhile p (a ++ c :: b) = a ++ c :: dropEndWhile p b := by
  induction b using List.reverseRecOn with
  | nil =>
    rw [dropEndWhile_append_singleton, if_neg (by simp [hc])]
    rfl
  | append_singleton b d ih =>
    have hassoc : a ++ c :: (b ++ [d]) = (a ++ c :: b) ++ [d] := by simp
    rw [hassoc, dropEndWhile_append_singleton, dropEndWhile_append_singleton]
    split
    · exact ih
    · rw [← hassoc]

/-! ## Solid texts -/

/-- A text that ends in a character that is no blank. -/
def Solid (cs : List Char) : Prop :=
  ∃ init c, cs = init ++ [c] ∧ isBlank c = false

theorem Solid.ne_nil {cs : List Char} (h : Solid cs) : cs ≠ [] := by
  obtain ⟨init, c, rfl, _⟩ := h
  simp

theorem Solid.append {b : List Char} (h : Solid b) (a : List Char) : Solid (a ++ b) := by
  obtain ⟨init, c, rfl, hc⟩ := h
  exact ⟨a ++ init, c, (List.append_assoc ..).symm, hc⟩

theorem Solid.of_append {a b : List Char} (h : Solid (a ++ b)) (hb : b ≠ []) : Solid b := by
  obtain ⟨init, c, heq, hc⟩ := h
  have hlast : b = b.dropLast ++ [b.getLast hb] := (List.dropLast_append_getLast hb).symm
  rw [hlast, ← List.append_assoc] at heq
  have hsame : [b.getLast hb] = [c] := (List.append_inj' heq rfl).2
  rw [hsame] at hlast
  exact ⟨b.dropLast, c, hlast, hc⟩

theorem Solid.trimEnd {cs : List Char} (h : Solid cs) : trimEnd cs = cs := by
  obtain ⟨init, c, rfl, hc⟩ := h
  rw [Text.trimEnd, dropEndWhile_append_singleton, if_neg (by simp [hc])]

theorem Solid.exists_nonblank {cs : List Char} (h : Solid cs) : ∃ c ∈ cs, isBlank c = false := by
  obtain ⟨init, c, rfl, hc⟩ := h
  exact ⟨c, by simp, hc⟩

theorem solid_trimEnd {cs : List Char} (h : allBlank cs = false) : Solid (trimEnd cs) := by
  induction cs using List.reverseRecOn with
  | nil => cases h
  | append_singleton cs c ih =>
    rw [trimEnd, dropEndWhile_append_singleton]
    by_cases hc : isBlank c = true
    · rw [if_pos hc]
      refine ih ?_
      simpa [allBlank, hc] using h
    · rw [if_neg hc]
      exact ⟨cs, c, rfl, by simpa using hc⟩

/-- The blanks that `trimEnd` drops. -/
def trailing (cs : List Char) : List Char :=
  cs.rtakeWhile isBlank

theorem trimEnd_append_trailing (cs : List Char) : trimEnd cs ++ trailing cs = cs :=
  List.rdropWhile_append_rtakeWhile ..

theorem isBlank_of_mem_trailing {cs : List Char} {c : Char} (h : c ∈ trailing cs) :
    isBlank c = true :=
  List.mem_rtakeWhile_imp h

theorem trimEnd_append_of_blank {a b : List Char} (hb : ∀ c ∈ b, isBlank c = true) :
    trimEnd (a ++ b) = trimEnd a :=
  dropEndWhile_append_of_all hb

theorem trimStart_of_blank {cs : List Char} (h : ∀ c ∈ cs, isBlank c = true) :
    trimStart cs = [] :=
  List.dropWhile_eq_nil_iff.2 h

theorem trimStart_append_of_solid {a : List Char} (h : Solid a) (b : List Char) :
    trimStart (a ++ b) = trimStart a ++ b := by
  unfold trimStart
  rw [List.dropWhile_append, if_neg]
  intro he
  obtain ⟨c, hc, hn⟩ := h.exists_nonblank
  have hall := List.dropWhile_eq_nil_iff.1 (List.isEmpty_iff.1 he) c hc
  rw [hn] at hall
  cases hall

theorem solid_trimStart {cs : List Char} (h : Solid cs) : Solid (trimStart cs) := by
  have hsplit : cs = cs.takeWhile isBlank ++ trimStart cs := List.takeWhile_append_dropWhile.symm
  have hne : trimStart cs ≠ [] := by
    intro hnil
    obtain ⟨c, hc, hn⟩ := h.exists_nonblank
    have hall := List.dropWhile_eq_nil_iff.1 hnil c hc
    rw [hn] at hall
    cases hall
  rw [hsplit] at h
  exact h.of_append hne

/-- Blanks behind a solid text are trimmed away. -/
theorem trim_append_of_solid {a b : List Char} (ha : Solid a) (hb : ∀ c ∈ b, isBlank c = true) :
    trim (a ++ b) = trimStart a := by
  rw [trim, trimStart_append_of_solid ha, trimEnd_append_of_blank hb]
  exact (solid_trimStart ha).trimEnd

theorem trim_of_blank {cs : List Char} (h : ∀ c ∈ cs, isBlank c = true) : trim cs = [] := by
  rw [trim, trimStart_of_blank h]
  rfl

end Text
end Comfort
