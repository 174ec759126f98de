import Comfort.Proofs.Line.Productions

/-!
Where an id is written.

An id that is read from a line stands in the line behind a `#`, and its range is that of the id
alone: `SourceLine.marks_meaning`.
-/

namespace Comfort

open Text (IsId)

/-- The id stands in the span, behind a `#`. -/
def Span.Marks (s : Span) (id : Capture) : Prop :=
  IsId id.value.toList ∧
    ∃ start, s.Holds { start := start, chars := '#' :: id.value.toList } ∧
      id.range = ⟨start + 1, start + 1 + Text.byteLength id.value.toList⟩

variable {s t : Span} {id : Capture}

theorem Span.Marks.of_holds (h : t.Marks id) (hs : s.Holds t) : s.Marks id := by
  obtain ⟨hid, start, ht, hrange⟩ := h
  exact ⟨hid, start, hs.trans ht, hrange⟩

namespace LineForm

variable {form : LineForm} {line : SourceLine} {labels : GlobalLabels}

theorem marks_splitId {body : Span} (h : (splitId body).2 = some id) : body.Marks id := by
  obtain ⟨text, found, hsplit⟩ := exists_splitsId body.chars
  rw [splitId_of_splitsId hsplit] at h
  cases hsplit with
  | @written front piece hbody hid =>
    cases h
    have hvalue : (String.ofList piece).toList = piece := String.toList_ofList
    have hmark : Text.byteLength ['#'] = 1 := rfl
    refine ⟨?_, body.start + Text.byteLength front, ⟨front, [], ?_, rfl⟩, ?_⟩
    · show IsId (String.ofList piece).toList
      rw [hvalue]
      exact hid
    · show body.chars = front ++ ('#' :: (String.ofList piece).toList ++ [])
      rw [hvalue, List.append_nil, hbody]
    · show Span.range _ = _
      simp only [Span.range, Span.capture, Span.text, hvalue, Text.byteLength_append, hmark,
        Nat.add_assoc]
  | absent _ => cases h

theorem marks_of_stageHeader? (h : stageHeader? s = some form) (hid : form.id? = some id) :
    s.Marks id := by
  simp only [stageHeader?, Option.bind_eq_bind, Option.bind_eq_some_iff] at h
  obtain ⟨⟨head, body⟩, hheading, text, -, h⟩ := h
  split at h
  · cases h
    exact (marks_splitId hid).of_holds (holds_heading? hheading).2
  · cases h

theorem marks_of_dialogue? (h : dialogue? s = some form) (hid : form.id? = some id) :
    s.Marks id := by
  simp only [dialogue?, Option.bind_eq_bind, Option.bind_eq_some_iff] at h
  obtain ⟨⟨head, body⟩, hheading, text, -, h⟩ := h
  split at h
  · cases h
    exact (marks_splitId hid).of_holds (holds_heading? hheading).2
  · cases h

theorem marks_of_narration? (h : narration? s = some form) (hid : form.id? = some id) :
    s.Marks id := by
  unfold narration? at h
  split at h
  · obtain ⟨text, -, rfl⟩ := Option.map_eq_some_iff.1 h
    have hbody : s.Holds (s.trimStart.drop 1).trim :=
      (Span.holds_trimStart s).trans ((Span.holds_drop _ 1).trans (Span.holds_trim _))
    exact (marks_splitId hid).of_holds hbody
  · cases h

theorem marks_of_classify? (h : classify? labels line = some form) (hid : form.id? = some id) :
    line.span.Marks id := by
  simp only [classify?, Option.orElse_eq_orElse, Option.orElse_eq_or, Option.or_eq_some_iff] at h
  rcases h with h | ⟨-, h | ⟨-, h | ⟨-, h | ⟨-, h⟩⟩⟩⟩
  · obtain ⟨_, rfl⟩ := form_of_comment? h
    cases hid
  · obtain ⟨_, _, rfl⟩ := form_of_configuredLabel? h
    cases hid
  · exact marks_of_stageHeader? h hid
  · exact marks_of_dialogue? h hid
  · exact marks_of_narration? h hid

end LineForm

namespace LineMeaning

/-- The place of a meaning for an id, and the id that is written there.  An element has one in an
open stage only. -/
def idSlot? (inStage : Bool) : LineMeaning → Option (Option Capture)
  | header _ id => some id
  | element _ _ id => if inStage then some id else none
  | _ => none

variable {form : LineForm} {line : SourceLine} {inStage : Bool}

theorem id?_of_idSlot?_ofForm (h : (ofForm line form).idSlot? inStage = some (some id)) :
    form.id? = some id ∨
      ∃ header, LineForm.stageHeader? line.span = some header ∧ header.id? = some id := by
  cases form with
  | comment text => cases h
  | stage label name c => exact .inl (Option.some.inj h)
  | dialogue speaker text c =>
    simp only [ofForm, idSlot?, Option.ite_none_right_eq_some] at h
    exact .inl (Option.some.inj h.2)
  | narration text c =>
    simp only [ofForm, idSlot?, Option.ite_none_right_eq_some] at h
    exact .inl (Option.some.inj h.2)
  | label label text =>
    simp only [ofForm] at h
    split at h
    · cases h
    · split at h
      · cases hs : LineForm.stageHeader? line.span with
        | none =>
          rw [hs] at h
          cases h
        | some header =>
          rw [hs] at h
          exact .inr ⟨header, rfl, Option.some.inj h⟩
      · cases h

end LineMeaning

/-- An id that a line gives to a stage or to an element is written in the line. -/
theorem SourceLine.marks_meaning {labels : GlobalLabels} {line : SourceLine} {inStage : Bool}
    (h : (line.meaning labels).idSlot? inStage = some (some id)) : line.span.Marks id := by
  unfold meaning at h
  split at h
  · cases h
  · split at h
    · next form hform =>
      rcases LineMeaning.id?_of_idSlot?_ofForm h with hid | ⟨header, hheader, hid⟩
      · exact LineForm.marks_of_classify? hform hid
      · exact LineForm.marks_of_stageHeader? hheader hid
    · cases h

end Comfort
