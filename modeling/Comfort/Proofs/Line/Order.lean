import Comfort.Proofs.Line.Captures

/-!
The order of what a line captures.

A heading ends in front of the text of the line, and the text ends in front of the id.  So the
pieces that a line is cut into do not overlap: `LineForm.ordered_of_classify?`.
-/

namespace Comfort
namespace Span

variable {s t u : Span}

/-- The one span ends where the other begins, or in front of it. -/
def Precedes (t u : Span) : Prop :=
  t.range.stop ≤ u.range.start

theorem Precedes.of_holds {t' u' : Span} (h : t.Precedes u) (ht : t.Holds t') (hu : u.Holds u') :
    t'.Precedes u' := by
  have htin := (TextRange.contains_iff.1 ht.contains_range).2.1
  have huin := (TextRange.contains_iff.1 hu.contains_range).1
  exact Nat.le_trans htin (Nat.le_trans h huin)

theorem precedes_take_drop {m n : Nat} (h : m ≤ n) (s : Span) :
    (s.take m).Precedes (s.drop n) :=
  Nat.add_le_add_left (Text.byteLength_take_le h s.chars) s.start

theorem precedes_splitFirst? {c : Char} (h : s.splitFirst? c = some (t, u)) : t.Precedes u := by
  unfold splitFirst? at h
  split at h
  · cases h
    exact precedes_take_drop (Nat.le_succ _) s
  · cases h

theorem precedes_splitLast? {c : Char} (h : s.splitLast? c = some (t, u)) : t.Precedes u := by
  unfold splitLast? at h
  split at h
  · cases h
    exact precedes_take_drop (Nat.le_succ _) s
  · cases h

end Span

namespace LineForm

variable {s head body : Span} {form : LineForm} {labels : GlobalLabels} {line : SourceLine}

theorem precedes_heading? (h : heading? s = some (head, body)) : head.Precedes body := by
  unfold heading? at h
  obtain ⟨⟨before, after⟩, hsplit, heq⟩ := Option.map_eq_some_iff.1 h
  cases heq
  exact (Span.precedes_splitFirst? hsplit).of_holds (Span.holds_trimEnd before)
    (Span.holds_trim after)

theorem stop_le_of_splitId {id : Capture} (h : (splitId body).2 = some id) :
    (splitId body).1.range.stop ≤ id.range.start := by
  unfold splitId at h ⊢
  split at h
  · cases h
  · next text rest hsplit =>
    split at h
    · next hid =>
      cases h
      rw [if_pos hid]
      exact (Span.precedes_splitLast? hsplit).of_holds (Span.holds_trimEnd text)
        (Span.holds_refl rest)
    · cases h

/-- The text stands behind what introduces it and in front of the id. -/
structure Ordered (form : LineForm) : Prop where
  label : ∀ c ∈ form.label?, c.range.stop ≤ form.text.range.start
  speaker : ∀ c ∈ form.speaker?, c.range.stop ≤ form.text.range.start
  id : ∀ c ∈ form.id?, form.text.range.stop ≤ c.range.start

/-- The order of the three captures of a rule with a heading and an id. -/
theorem stop_le_of_heading? {text : Capture} (h : heading? s = some (head, body))
    (ht : plainText? (splitId body).1 = some text) :
    head.capture.range.stop ≤ text.range.start ∧
      ∀ c ∈ (splitId body).2, text.range.stop ≤ c.range.start := by
  obtain ⟨-, rfl⟩ := plainText?_eq_some.1 ht
  exact ⟨(precedes_heading? h).of_holds (Span.holds_refl head) (holds_splitId body).1,
    fun c hc => stop_le_of_splitId hc⟩

theorem ordered_of_comment? (h : comment? s = some form) : form.Ordered := by
  obtain ⟨text, rfl⟩ := form_of_comment? h
  exact ⟨by rintro _ ⟨⟩, by rintro _ ⟨⟩, by rintro _ ⟨⟩⟩

theorem ordered_of_configuredLabel? (h : configuredLabel? labels s = some form) :
    form.Ordered := by
  simp only [configuredLabel?, Option.bind_eq_bind, Option.bind_eq_some_iff] at h
  obtain ⟨⟨head, body⟩, hheading, text, htext, h⟩ := h
  obtain ⟨-, rfl⟩ := plainText?_eq_some.1 htext
  split at h
  · cases h
    refine ⟨fun c hc => ?_, by rintro _ ⟨⟩, by rintro _ ⟨⟩⟩
    cases hc
    exact precedes_heading? hheading
  · cases h

theorem ordered_of_stageHeader? (h : stageHeader? s = some form) : form.Ordered := by
  simp only [stageHeader?, Option.bind_eq_bind, Option.bind_eq_some_iff] at h
  obtain ⟨⟨head, body⟩, hheading, text, htext, h⟩ := h
  obtain ⟨hhead, hid⟩ := stop_le_of_heading? hheading htext
  split at h
  · cases h
    refine ⟨fun c hc => ?_, by rintro _ ⟨⟩, hid⟩
    cases hc
    exact hhead
  · cases h

theorem ordered_of_dialogue? (h : dialogue? s = some form) : form.Ordered := by
  simp only [dialogue?, Option.bind_eq_bind, Option.bind_eq_some_iff] at h
  obtain ⟨⟨head, body⟩, hheading, text, htext, h⟩ := h
  obtain ⟨hhead, hid⟩ := stop_le_of_heading? hheading htext
  split at h
  · cases h
    refine ⟨by rintro _ ⟨⟩, fun c hc => ?_, hid⟩
    cases hc
    exact hhead
  · cases h

theorem ordered_of_narration? (h : narration? s = some form) : form.Ordered := by
  unfold narration? at h
  split at h
  · obtain ⟨text, htext, rfl⟩ := Option.map_eq_some_iff.1 h
    obtain ⟨-, rfl⟩ := plainText?_eq_some.1 htext
    exact ⟨by rintro _ ⟨⟩, by rintro _ ⟨⟩, fun c hc => stop_le_of_splitId hc⟩
  · cases h

theorem ordered_of_classify? (h : classify? labels line = some form) : form.Ordered := by
  simp only [classify?, Option.orElse_eq_orElse, Option.orElse_eq_or, Option.or_eq_some_iff] at h
  rcases h with h | ⟨-, h | ⟨-, h | ⟨-, h | ⟨-, h⟩⟩⟩⟩
  · exact ordered_of_comment? h
  · exact ordered_of_configuredLabel? h
  · exact ordered_of_stageHeader? h
  · exact ordered_of_dialogue? h
  · exact ordered_of_narration? h

end LineForm

end Comfort
