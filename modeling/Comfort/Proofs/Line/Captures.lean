import Comfort.Proofs.Line.Meaning
import Comfort.Proofs.Text.Piece

/-!
What is captured from a line stands in it.

Every rule of the grammar captures pieces of the line, so each capture has the text that stands at
its range: `SourceLine.showsAll_meaning`.  This holds of a header too that is read a second time.
-/

namespace Comfort

def LineForm.captures : LineForm → List Capture
  | .comment text => [text]
  | .label name text => [name, text]
  | .stage name text id => name :: text :: id.toList
  | .dialogue speaker text id => speaker :: text :: id.toList
  | .narration text id => text :: id.toList

def LineMeaning.captures : LineMeaning → List Capture
  | .blank => []
  | .comment text => [text]
  | .field _ label text => [label, text]
  | .header name id => name :: id.toList
  | .element speaker text id => speaker.toList ++ text :: id.toList
  | .other => []

/-- All captures stand in the span. -/
def Span.ShowsAll (s : Span) (captures : List Capture) : Prop :=
  ∀ c ∈ captures, s.Shows c.value c.range

namespace LineForm

variable {s head body : Span} {form : LineForm} {labels : GlobalLabels} {line : SourceLine}

theorem holds_heading? (h : heading? s = some (head, body)) : s.Holds head ∧ s.Holds body := by
  unfold heading? at h
  obtain ⟨⟨before, after⟩, hsplit, heq⟩ := Option.map_eq_some_iff.1 h
  obtain ⟨hbefore, hafter⟩ := Span.holds_splitFirst? hsplit
  cases heq
  have hs := Span.holds_trimStart s
  exact ⟨hs.trans (hbefore.trans (Span.holds_trimEnd before)),
    hs.trans (hafter.trans (Span.holds_trim after))⟩

theorem holds_splitId (body : Span) :
    body.Holds (splitId body).1 ∧ body.ShowsAll (splitId body).2.toList := by
  unfold splitId
  split
  · exact ⟨Span.holds_refl body, nofun⟩
  · next text id hsplit =>
    obtain ⟨htext, hid⟩ := Span.holds_splitLast? hsplit
    split
    · refine ⟨htext.trans (Span.holds_trimEnd text), fun c hc => ?_⟩
      cases List.mem_singleton.1 hc
      exact hid.shows
    · exact ⟨Span.holds_refl body, nofun⟩

theorem shows_plainText? {t : Span} {c : Capture} (hs : s.Holds t) (h : plainText? t = some c) :
    s.Shows c.value c.range := by
  obtain ⟨-, rfl⟩ := plainText?_eq_some.1 h
  exact hs.shows

/-- The three captures of a rule with a heading and an id. -/
theorem showsAll_of_heading? {text : Capture} (h : heading? s = some (head, body))
    (ht : plainText? (splitId body).1 = some text) :
    s.ShowsAll (head.capture :: text :: (splitId body).2.toList) := by
  obtain ⟨hhead, hbody⟩ := holds_heading? h
  obtain ⟨htext, hid⟩ := holds_splitId body
  intro c hc
  rcases List.mem_cons.1 hc with rfl | hc
  · exact hhead.shows
  · rcases List.mem_cons.1 hc with rfl | hc
    · exact shows_plainText? (hbody.trans htext) ht
    · exact (hid c hc).of_holds hbody

theorem showsAll_of_comment? (h : comment? s = some form) : s.ShowsAll form.captures := by
  unfold comment? at h
  split at h
  · obtain ⟨text, htext, rfl⟩ := Option.map_eq_some_iff.1 h
    intro c hc
    cases List.mem_singleton.1 hc
    have hs := Span.holds_trimStart s
    exact shows_plainText? (hs.trans ((Span.holds_drop _ _).trans (Span.holds_trimEnd _))) htext
  · cases h

theorem showsAll_of_configuredLabel? (h : configuredLabel? labels s = some form) :
    s.ShowsAll form.captures := by
  simp only [configuredLabel?, Option.bind_eq_bind, Option.bind_eq_some_iff] at h
  obtain ⟨⟨head, body⟩, hheading, text, htext, h⟩ := h
  obtain ⟨hhead, hbody⟩ := holds_heading? hheading
  split at h
  · cases h
    intro c hc
    rcases List.mem_cons.1 hc with rfl | hc
    · exact hhead.shows
    · cases List.mem_singleton.1 hc
      exact shows_plainText? hbody htext
  · cases h

theorem showsAll_of_stageHeader? (h : stageHeader? s = some form) : s.ShowsAll form.captures := by
  simp only [stageHeader?, Option.bind_eq_bind, Option.bind_eq_some_iff] at h
  obtain ⟨⟨head, body⟩, hheading, text, htext, h⟩ := h
  split at h
  · cases h
    exact showsAll_of_heading? hheading htext
  · cases h

theorem showsAll_of_dialogue? (h : dialogue? s = some form) : s.ShowsAll form.captures := by
  simp only [dialogue?, Option.bind_eq_bind, Option.bind_eq_some_iff] at h
  obtain ⟨⟨head, body⟩, hheading, text, htext, h⟩ := h
  split at h
  · cases h
    exact showsAll_of_heading? hheading htext
  · cases h

theorem showsAll_of_narration? (h : narration? s = some form) : s.ShowsAll form.captures := by
  unfold narration? at h
  split at h
  · obtain ⟨text, htext, rfl⟩ := Option.map_eq_some_iff.1 h
    have hbody : s.Holds (s.trimStart.drop 1).trim :=
      (Span.holds_trimStart s).trans ((Span.holds_drop _ 1).trans (Span.holds_trim _))
    obtain ⟨hpiece, hid⟩ := holds_splitId (s.trimStart.drop 1).trim
    intro c hc
    rcases List.mem_cons.1 hc with rfl | hc
    · exact shows_plainText? (hbody.trans hpiece) htext
    · exact (hid c hc).of_holds hbody
  · cases h

theorem showsAll_of_classify? (h : classify? labels line = some form) :
    line.span.ShowsAll form.captures := by
  simp only [classify?, Option.orElse_eq_orElse, Option.orElse_eq_or, Option.or_eq_some_iff] at h
  rcases h with h | ⟨-, h | ⟨-, h | ⟨-, h | ⟨-, h⟩⟩⟩⟩
  · exact showsAll_of_comment? h
  · exact showsAll_of_configuredLabel? h
  · exact showsAll_of_stageHeader? h
  · exact showsAll_of_dialogue? h
  · exact showsAll_of_narration? h

end LineForm

namespace LineMeaning

variable {s : Span} {line : SourceLine} {form : LineForm}

theorem showsAll_ofHeader {form : Option LineForm} (h : ∀ f ∈ form, s.ShowsAll f.captures) :
    s.ShowsAll (ofHeader form).captures := by
  cases form with
  | none => exact nofun
  | some form =>
    have hform : s.ShowsAll form.captures := h form rfl
    cases form with
    | stage label text id => exact fun c hc => hform c (List.mem_cons_of_mem _ hc)
    | dialogue speaker text id => exact fun c hc => hform c (List.mem_cons_of_mem _ hc)
    | label label text => exact fun c hc => hform c (List.mem_cons_of_mem _ hc)
    | comment text => exact hform
    | narration text id => exact hform

theorem showsAll_ofForm (h : line.span.ShowsAll form.captures) :
    line.span.ShowsAll (ofForm line form).captures := by
  cases form with
  | comment text => exact h
  | dialogue speaker text id => exact h
  | narration text id => exact h
  | stage label text id => exact fun c hc => h c (List.mem_cons_of_mem _ hc)
  | label label text =>
    simp only [ofForm]
    split
    · exact h
    · split
      · exact showsAll_ofHeader fun f hf => LineForm.showsAll_of_stageHeader? hf
      · exact nofun

end LineMeaning

/-- What a line means is told by pieces of it. -/
theorem SourceLine.showsAll_meaning (labels : GlobalLabels) (line : SourceLine) :
    line.span.ShowsAll (line.meaning labels).captures := by
  unfold meaning
  split
  · exact nofun
  · split
    · next form hform => exact LineMeaning.showsAll_ofForm (LineForm.showsAll_of_classify? hform)
    · exact nofun

end Comfort
