import Comfort.Proofs.Line.Captures
import Comfort.Proofs.Pass.Basic

/-!
Where the notes of a pass stand.

A step of a pass puts notes on the line that it handles and on no other, and their ranges are those
of captures, that of the whole text, or the place for an id.  All of these lie in the text of the
line, so every note of a run lies in the text of one line: `anchored_run`.
-/

namespace Comfort

/-- A range in the text of one of the lines. -/
def InALine (lines : List SourceLine) (range : TextRange) : Prop :=
  ∃ line ∈ lines, line.contentRange.contains range = true

variable {lines : List SourceLine} {line : SourceLine} {ctx : ParseContext}

theorem inALine_contentRange (hl : line ∈ lines) : InALine lines line.contentRange :=
  ⟨line, hl, (Span.holds_refl line.span).contains_range⟩

theorem inALine_of_shows {text : String} {range : TextRange} (hl : line ∈ lines)
    (h : line.span.Shows text range) : InALine lines range :=
  ⟨line, hl, h.contains_range⟩

/-- The place for an id is at the end of what the line says, or in front of it where the line says
nothing. -/
theorem inALine_idPlace (hl : line ∈ lines) : InALine lines (Session.idPlace line) := by
  have hsplit := Text.trimEnd_append_trailing line.text.toList
  have hlength : Text.byteLength line.text.toList
      = Text.byteLength (Text.trimEnd line.text.toList)
        + Text.byteLength (Text.trailing line.text.toList) := by
    rw [← Text.byteLength_append, hsplit]
  refine ⟨line, hl, TextRange.contains_iff.2 ⟨?_, ?_, ?_⟩⟩
  · show line.range.start ≤ line.range.start + Text.byteLength (Text.trimEnd line.text.toList)
    omega
  · show line.range.start + Text.byteLength (Text.trimEnd line.text.toList)
      ≤ line.range.start + Text.byteLength line.text.toList
    omega
  · exact Nat.le_refl _

/-! ## Reports -/

namespace Report

/-- Every note stands in the text of one line, and a word is what stands at its range. -/
structure Anchored (lines : List SourceLine) (r : Report) : Prop where
  diagnostics : ∀ d ∈ r.diagnostics, InALine lines d.range
  hovers : ∀ h ∈ r.hovers, InALine lines h.range
  completions : ∀ c ∈ r.completions, InALine lines c.range
  edits : ∀ e ∈ r.edits, InALine lines e.range
  words : ∀ w ∈ r.words, ∃ line ∈ lines, line.span.Shows w.text w.range

theorem anchored_empty (lines : List SourceLine) : Anchored lines {} :=
  ⟨nofun, nofun, nofun, nofun, nofun⟩

variable {r : Report} {range : TextRange}

theorem Anchored.addDiagnostic (h : r.Anchored lines) (message : String)
    (hr : InALine lines range) : (r.addDiagnostic message range).Anchored lines :=
  { h with diagnostics := List.forall_mem_append.2 ⟨h.diagnostics, List.forall_mem_singleton.2 hr⟩ }

theorem Anchored.addHover (h : r.Anchored lines) (content : String) (hr : InALine lines range) :
    (r.addHover content range).Anchored lines :=
  { h with hovers := List.forall_mem_append.2 ⟨h.hovers, List.forall_mem_singleton.2 hr⟩ }

theorem Anchored.addCompletion (h : r.Anchored lines) (candidates : List String)
    (hr : InALine lines range) : (r.addCompletion range candidates).Anchored lines :=
  { h with completions := List.forall_mem_append.2 ⟨h.completions, List.forall_mem_singleton.2 hr⟩ }

theorem Anchored.addEdit (h : r.Anchored lines) (newText : String) (hr : InALine lines range) :
    (r.addEdit range newText).Anchored lines :=
  { h with edits := List.forall_mem_append.2 ⟨h.edits, List.forall_mem_singleton.2 hr⟩ }

theorem Anchored.spell {c : Capture} (h : r.Anchored lines) (hl : line ∈ lines)
    (hc : line.span.Shows c.value c.range) : (r.spell ctx c).Anchored lines := by
  unfold Report.spell
  split
  · refine { h with words := List.forall_mem_append.2 ⟨h.words, fun w hw => ?_⟩ }
    exact ⟨line, hl, (Text.shows_of_mem_words hw).of_holds hc.holds⟩
  · exact h

/-- What is written into the record has no place in the document. -/
theorem Anchored.withRecord (h : r.Anchored lines) (record : Record) :
    { r with record := record }.Anchored lines :=
  ⟨h.diagnostics, h.hovers, h.completions, h.edits, h.words⟩

end Report

/-! ## Steps of a pass -/

namespace Pass

variable {p q : Pass}

theorem anchored_unfamiliar (h : p.report.Anchored lines) (hl : line ∈ lines) :
    (p.unfamiliar line).report.Anchored lines :=
  h.addDiagnostic _ (inALine_contentRange hl)

theorem anchored_setField {field : Field} {label text : Capture} (h : p.report.Anchored lines)
    (hl : line ∈ lines) (hlabel : line.span.Shows label.value label.range)
    (htext : line.span.Shows text.value text.range) :
    (p.setField ctx line field label text).report.Anchored lines := by
  unfold setField
  dsimp only
  refine Report.Anchored.withRecord ?_ _
  refine Report.Anchored.addHover ?_ _ (inALine_of_shows hl hlabel)
  have hnamed : (if field = .name ∧ trimmed text.value = "" then
      p.diagnose "Quest name required!" line.contentRange else p).report.Anchored lines := by
    split
    · exact h.addDiagnostic _ (inALine_contentRange hl)
    · exact h
  split
  · exact hnamed.spell hl htext
  · exact hnamed

theorem anchored_claim {id : Option Capture} {a : String} (h : p.report.Anchored lines)
    (hl : line ∈ lines) (hid : line.span.ShowsAll id.toList)
    (hd : p.claim line id = .done q a) : q.report.Anchored lines := by
  cases id with
  | some id =>
    have hshows : line.span.Shows id.value id.range := hid id (List.mem_singleton.2 rfl)
    simp only [claim] at hd
    split at hd
    · cases hd
      exact h.addDiagnostic _ (inALine_of_shows hl hshows)
    · cases hd
      exact h
  | none =>
    simp only [claim] at hd
    split at hd
    · cases hd
    · cases hd
      exact h.addEdit _ (inALine_idPlace hl)

theorem anchored_speaker {c : Option Capture} {a : Option String × Bool}
    (h : p.report.Anchored lines) (hl : line ∈ lines) (hc : line.span.ShowsAll c.toList)
    (hd : p.speaker ctx c = .done q a) : q.report.Anchored lines := by
  cases c with
  | none =>
    cases hd
    exact h
  | some c =>
    have hrange : InALine lines c.range := inALine_of_shows hl (hc c (List.mem_singleton.2 rfl))
    simp only [speaker] at hd
    split at hd
    · cases hd
      exact h
    · cases hd
    · next speakers _ =>
      have hcompleted := h.addCompletion (Session.candidates speakers) hrange
      split at hd
      · cases hd
        exact hcompleted.addHover _ hrange
      · cases hd
        exact hcompleted.addDiagnostic _ hrange

theorem anchored_openStage {name : Capture} {id : Option Capture} (h : p.report.Anchored lines)
    (hl : line ∈ lines) (hs : line.span.ShowsAll (name :: id.toList))
    (hd : p.openStage ctx line name id = .done q ()) : q.report.Anchored lines := by
  have hname : line.span.Shows name.value name.range := hs name List.mem_cons_self
  have hid : line.span.ShowsAll id.toList := fun c hc => hs c (List.mem_cons_of_mem _ hc)
  unfold openStage at hd
  obtain ⟨t, a, ht, hd⟩ := Outcome.andThen_eq_done.1 hd
  cases hd
  refine Report.Anchored.withRecord (anchored_claim ?_ hl hid ht) _
  refine Report.Anchored.spell ?_ hl hname
  split
  · exact h.addDiagnostic _ (inALine_contentRange hl)
  · exact h

theorem anchored_addElement {speaker : Option Capture} {text : Capture} {id : Option Capture}
    (h : p.report.Anchored lines) (hl : line ∈ lines)
    (hs : line.span.ShowsAll (speaker.toList ++ text :: id.toList))
    (hd : p.addElement ctx line speaker text id = .done q ()) : q.report.Anchored lines := by
  have hspeaker : line.span.ShowsAll speaker.toList :=
    fun c hc => hs c (List.mem_append_left _ hc)
  have htext : line.span.Shows text.value text.range :=
    hs text (List.mem_append_right _ List.mem_cons_self)
  have hid : line.span.ShowsAll id.toList :=
    fun c hc => hs c (List.mem_append_right _ (List.mem_cons_of_mem _ hc))
  unfold addElement at hd
  obtain ⟨t, a, ht, hd⟩ := Outcome.andThen_eq_done.1 hd
  obtain ⟨u, b, hu, hd⟩ := Outcome.andThen_eq_done.1 hd
  cases hd
  have hspelled : (p.spell ctx text).report.Anchored lines := h.spell hl htext
  have hfound : t.report.Anchored lines := anchored_speaker hspelled hl hspeaker ht
  refine Report.Anchored.withRecord (anchored_claim ?_ hl hid hu) _
  split
  · exact hfound.addDiagnostic _ (inALine_contentRange hl)
  · exact hfound

theorem anchored_step (h : p.report.Anchored lines) (hl : line ∈ lines)
    (hd : p.step ctx line = .done q ()) : q.report.Anchored lines := by
  have hcaptures := SourceLine.showsAll_meaning ctx.labels line
  unfold step at hd
  cases hm : line.meaning ctx.labels with
  | blank =>
    rw [hm] at hd
    cases hd
    exact h
  | comment text =>
    rw [hm] at hd
    dsimp only at hd
    split at hd <;> cases hd <;> exact h.withRecord _
  | field field label text =>
    rw [hm] at hd hcaptures
    cases hd
    have hlabel : line.span.Shows label.value label.range := hcaptures label List.mem_cons_self
    have htext : line.span.Shows text.value text.range :=
      hcaptures text (List.mem_cons_of_mem _ List.mem_cons_self)
    exact anchored_setField (p := p.traceLine line) h hl hlabel htext
  | header name id =>
    rw [hm] at hd hcaptures
    exact anchored_openStage (p := p.traceLine line) h hl hcaptures hd
  | element speaker text id =>
    rw [hm] at hd hcaptures
    dsimp only at hd
    split at hd
    · exact anchored_addElement (p := p.traceLine line) h hl hcaptures hd
    · cases hd
      exact anchored_unfamiliar (p := p.traceLine line) h hl
  | other =>
    rw [hm] at hd
    cases hd
    exact anchored_unfamiliar (p := p.traceLine line) h hl

/-- A run leaves its notes on the lines that it goes over. -/
theorem anchored_run {rest : List SourceLine} (h : p.report.Anchored lines)
    (hl : ∀ line ∈ rest, line ∈ lines) (hd : p.run ctx rest = .done q ()) :
    q.report.Anchored lines := by
  induction rest generalizing p with
  | nil =>
    cases hd
    exact h
  | cons line rest ih =>
    obtain ⟨t, _, ht, hd⟩ := Outcome.andThen_eq_done.1 hd
    have hstep := anchored_step h (hl line List.mem_cons_self) ht
    exact ih hstep (fun l hmem => hl l (List.mem_cons_of_mem _ hmem)) hd

end Pass
end Comfort
