import Comfort.Proofs.Line.Shift
import Comfort.Proofs.Pass.Anchored

/-!
Passes over lines that stand at another place.

A line that is moved, with its number and its text as they were, means the same at its new place.
What a step notes on it are ranges of the line, so a step on the moved line leaves what the step on
the line leaves, with every range moved along: `step_moved`, and `run_moved` for a whole run.
-/

namespace Comfort

namespace Outcome

variable {σ τ ε α β : Type}

/-- A run that ends in another state. -/
def mapState (f : σ → τ) : Outcome σ ε α → Outcome τ ε α
  | done s a => done (f s) a
  | failed s e => failed (f s) e

theorem andThen_mapState {f : σ → τ} {next : σ → α → Outcome σ ε β} {next' : τ → α → Outcome τ ε β}
    (h : ∀ s a, next' (f s) a = (next s a).mapState f) (o : Outcome σ ε α) :
    (o.mapState f).andThen next' = (o.andThen next).mapState f := by
  cases o with
  | done s a => exact h s a
  | failed s e => rfl

end Outcome

/-! ## Moved lines -/

/-- A line that is moved by `n` bytes.  The ranges in its text are moved along. -/
structure SourceLine.Moved (f : TextRange → TextRange) (n : Nat) (line line' : SourceLine) :
    Prop where
  index : line'.index = line.index
  text : line'.text = line.text
  start : line'.range.start = line.range.start + n
  ranges : ∀ range, line.contentRange.contains range = true → f range = range.shift n

namespace SourceLine.Moved

variable {f : TextRange → TextRange} {n : Nat} {line line' : SourceLine}

theorem span (h : line.Moved f n line') : line'.span = line.span.shift n := by
  rw [SourceLine.span, h.text, h.start]
  rfl

theorem lineTrace (h : line.Moved f n line') :
    Session.lineTrace line' = Session.lineTrace line := by
  rw [Session.lineTrace, h.index, h.text]
  rfl

theorem idSeed (h : line.Moved f n line') : Session.idSeed line' = Session.idSeed line := by
  rw [Session.idSeed, h.index, h.text]
  rfl

theorem contentRange (h : line.Moved f n line') : line'.contentRange = f line.contentRange := by
  have hrange : f line.contentRange = line.contentRange.shift n :=
    h.ranges _ (Span.holds_refl line.span).contains_range
  rw [hrange, SourceLine.contentRange, h.span]
  exact congrArg Capture.range (Span.capture_shift n line.span)

theorem idPlace (h : line.Moved f n line') :
    Session.idPlace line' = f (Session.idPlace line) := by
  obtain ⟨l, hl, hcontains⟩ : InALine [line] (Session.idPlace line) :=
    inALine_idPlace (List.mem_singleton.2 rfl)
  rw [List.mem_singleton.1 hl] at hcontains
  have hplace : Session.idPlace line' = (Session.idPlace line).shift n := by
    simp only [Session.idPlace, TextRange.shift, h.text, h.start, Nat.add_right_comm]
  rw [h.ranges _ hcontains, hplace]

theorem capture (h : line.Moved f n line') {c : Capture}
    (hc : line.span.Shows c.value c.range) : (c.shift n).range = f c.range :=
  (h.ranges _ hc.contains_range).symm

end SourceLine.Moved

/-! ## Reports -/

namespace Report

/-- The report with its notes at other places. -/
def relocate (f : TextRange → TextRange) (r : Report) : Report :=
  { diagnostics := r.diagnostics.map fun d => { d with range := f d.range }
    hovers := r.hovers.map fun h => { h with range := f h.range }
    edits := r.edits.map fun e => { e with range := f e.range }
    completions := r.completions.map fun c => { c with range := f c.range }
    words := r.words.map fun w => { w with range := f w.range }
    record := r.record }

variable (f : TextRange → TextRange) (r : Report) (range : TextRange)

theorem relocate_addDiagnostic (message : String) :
    (r.addDiagnostic message range).relocate f
      = (r.relocate f).addDiagnostic message (f range) := by
  simp only [relocate, addDiagnostic, List.map_append, List.map_cons, List.map_nil]

theorem relocate_addHover (content : String) :
    (r.addHover content range).relocate f = (r.relocate f).addHover content (f range) := by
  simp only [relocate, addHover, List.map_append, List.map_cons, List.map_nil]

theorem relocate_addEdit (newText : String) :
    (r.addEdit range newText).relocate f = (r.relocate f).addEdit (f range) newText := by
  simp only [relocate, addEdit, List.map_append, List.map_cons, List.map_nil]

theorem relocate_addCompletion (candidates : List String) :
    (r.addCompletion range candidates).relocate f
      = (r.relocate f).addCompletion (f range) candidates := by
  simp only [relocate, addCompletion, List.map_append, List.map_cons, List.map_nil]

variable {f} {n : Nat} {line line' : SourceLine}

/-- The words of a moved capture are the moved words. -/
theorem relocate_spell (h : line.Moved f n line') (ctx : ParseContext) {c : Capture}
    (hc : line.span.Shows c.value c.range) :
    (r.spell ctx c).relocate f = (r.relocate f).spell ctx (c.shift n) := by
  have hwords : (Text.words c.range.start c.value.toList).map (fun w => { w with range := f w.range })
      = Text.words (c.shift n).range.start (c.shift n).value.toList := by
    show _ = Text.words (c.range.start + n) c.value.toList
    rw [Text.words_shift]
    refine List.map_congr_left fun w hw => ?_
    have hshows : line.span.Shows w.text w.range := (Text.shows_of_mem_words hw).of_holds hc.holds
    rw [Word.shift, h.ranges _ hshows.contains_range]
  unfold Report.spell
  split
  · simp only [relocate, addWords, List.map_append, hwords]
  · rfl

end Report

/-! ## Passes -/

namespace Pass

/-- The pass with its notes at other places. -/
def relocate (f : TextRange → TextRange) (p : Pass) : Pass :=
  { p with report := p.report.relocate f }

variable {f : TextRange → TextRange} {n : Nat} {line line' : SourceLine} {ctx : ParseContext}

theorem relocate_diagnoseIf (p : Pass) (b : Prop) [Decidable b] (message : String)
    (range : TextRange) :
    (if b then p.diagnose message range else p).relocate f
      = if b then (p.relocate f).diagnose message (f range) else p.relocate f := by
  split
  · simp only [relocate, diagnose, Report.relocate_addDiagnostic]
  · rfl

theorem relocate_spell (h : line.Moved f n line') (p : Pass) {c : Capture}
    (hc : line.span.Shows c.value c.range) :
    (p.spell ctx c).relocate f = (p.relocate f).spell ctx (c.shift n) := by
  simp only [relocate, spell, Report.relocate_spell p.report h ctx hc]

theorem relocate_traceLine (h : line.Moved f n line') (p : Pass) :
    (p.traceLine line).relocate f = (p.relocate f).traceLine line' := by
  simp only [relocate, traceLine, h.lineTrace]

theorem relocate_unfamiliar (h : line.Moved f n line') (p : Pass) :
    (p.unfamiliar line).relocate f = (p.relocate f).unfamiliar line' := by
  simp only [relocate, unfamiliar, diagnose, Report.relocate_addDiagnostic, h.contentRange, h.text]

theorem relocate_setField (h : line.Moved f n line') (p : Pass) (field : Field)
    {label text : Capture} (hlabel : line.span.Shows label.value label.range)
    (htext : line.span.Shows text.value text.range) :
    (p.setField ctx line field label text).relocate f
      = (p.relocate f).setField ctx line' field (label.shift n) (text.shift n) := by
  have hvalue : (text.shift n).value = text.value := rfl
  unfold setField
  dsimp only
  rw [hvalue, h.contentRange, ← relocate_diagnoseIf]
  generalize (if field = .name ∧ trimmed text.value = "" then
    p.diagnose "Quest name required!" line.contentRange else p) = q
  have hspelled : (if field.isProse then q.spell ctx text else q).relocate f
      = if field.isProse then (q.relocate f).spell ctx (text.shift n) else q.relocate f := by
    split
    · exact relocate_spell h q htext
    · rfl
  rw [← hspelled, h.capture hlabel]
  generalize (if field.isProse then q.spell ctx text else q) = u
  have hhover := u.report.relocate_addHover f label.range field.hoverText
  simp only [relocate, ← hhover]
  rfl

theorem claim_moved (h : line.Moved f n line') (p : Pass) {id : Option Capture}
    (hid : line.span.ShowsAll id.toList) :
    (p.relocate f).claim line' (id.map (·.shift n)) = (p.claim line id).mapState (relocate f) := by
  cases id with
  | some c =>
    have hc : line.span.Shows c.value c.range := hid c (List.mem_singleton.2 rfl)
    have hvalue : (c.shift n).value = c.value := rfl
    have hseen : (p.relocate f).seen = p.seen := rfl
    simp only [Option.map_some, claim, hvalue, hseen, h.capture hc]
    split
    · simp only [Outcome.mapState, relocate, diagnose, Report.relocate_addDiagnostic]
    · rfl
  | none =>
    have hseen : (p.relocate f).seen = p.seen := rfl
    simp only [Option.map_none, claim, hseen, h.idSeed, h.index, h.idPlace]
    split
    · rfl
    · simp only [Outcome.mapState, relocate, Report.relocate_addEdit]

theorem speaker_moved (h : line.Moved f n line') (p : Pass) {c : Option Capture}
    (hc : line.span.ShowsAll c.toList) :
    (p.relocate f).speaker ctx (c.map (·.shift n))
      = (p.speaker ctx c).mapState (relocate f) := by
  cases c with
  | none => rfl
  | some c =>
    have hrange := h.capture (hc c (List.mem_singleton.2 rfl))
    have hvalue : (c.shift n).value = c.value := rfl
    simp only [Option.map_some, speaker, hvalue, hrange]
    split
    · rfl
    · rfl
    · split
      · simp only [Outcome.mapState, relocate, Report.relocate_addHover,
          Report.relocate_addCompletion]
      · simp only [Outcome.mapState, relocate, Report.relocate_addDiagnostic,
          Report.relocate_addCompletion]

theorem openStage_moved (h : line.Moved f n line') (p : Pass) {name : Capture}
    {id : Option Capture} (hs : line.span.ShowsAll (name :: id.toList)) :
    (p.relocate f).openStage ctx line' (name.shift n) (id.map (·.shift n))
      = (p.openStage ctx line name id).mapState (relocate f) := by
  have hname : line.span.Shows name.value name.range := hs name List.mem_cons_self
  have hid : line.span.ShowsAll id.toList := fun c hc => hs c (List.mem_cons_of_mem _ hc)
  have hvalue : (name.shift n).value = name.value := rfl
  unfold openStage
  dsimp only
  rw [hvalue, h.contentRange, ← relocate_diagnoseIf, ← relocate_spell h _ hname, claim_moved h _ hid,
    h.index]
  exact Outcome.andThen_mapState (fun _ _ => rfl) _

theorem addElement_moved (h : line.Moved f n line') (p : Pass) {speaker : Option Capture}
    {text : Capture} {id : Option Capture}
    (hs : line.span.ShowsAll (speaker.toList ++ text :: id.toList)) :
    (p.relocate f).addElement ctx line' (speaker.map (·.shift n)) (text.shift n)
        (id.map (·.shift n))
      = (p.addElement ctx line speaker text id).mapState (relocate f) := by
  have hspeaker : line.span.ShowsAll speaker.toList :=
    fun c hc => hs c (List.mem_append_left _ hc)
  have htext : line.span.Shows text.value text.range :=
    hs text (List.mem_append_right _ List.mem_cons_self)
  have hid : line.span.ShowsAll id.toList :=
    fun c hc => hs c (List.mem_append_right _ (List.mem_cons_of_mem _ hc))
  have hvalue : (text.shift n).value = text.value := rfl
  unfold addElement
  dsimp only
  rw [hvalue, Option.isSome_map, ← relocate_spell h p htext, speaker_moved h _ hspeaker]
  refine Outcome.andThen_mapState (fun t a => ?_) _
  rw [h.contentRange, ← relocate_diagnoseIf, claim_moved h _ hid]
  exact Outcome.andThen_mapState (fun _ _ => rfl) _

/-- A step on a moved line leaves what the step on the line does, with the ranges moved. -/
theorem step_moved (h : line.Moved f n line') (p : Pass) :
    (p.relocate f).step ctx line' = (p.step ctx line).mapState (relocate f) := by
  have hcaptures := SourceLine.showsAll_meaning ctx.labels line
  have hin : (p.relocate f).inStage = p.inStage := rfl
  unfold step
  rw [SourceLine.meaning_shift n ctx.labels h.span, ← relocate_traceLine h]
  cases hm : line.meaning ctx.labels with
  | blank => rfl
  | comment text =>
    dsimp only [LineMeaning.shift]
    rw [hin]
    split <;> rfl
  | field field label text =>
    rw [hm] at hcaptures
    have hlabel : line.span.Shows label.value label.range := hcaptures label List.mem_cons_self
    have htext : line.span.Shows text.value text.range :=
      hcaptures text (List.mem_cons_of_mem _ List.mem_cons_self)
    dsimp only [LineMeaning.shift]
    rw [← relocate_setField h _ field hlabel htext]
    rfl
  | header name id =>
    rw [hm] at hcaptures
    exact openStage_moved h _ hcaptures
  | element speaker text id =>
    rw [hm] at hcaptures
    dsimp only [LineMeaning.shift]
    rw [hin]
    split
    · exact addElement_moved h _ hcaptures
    · rw [← relocate_unfamiliar h]
      rfl
  | other =>
    dsimp only [LineMeaning.shift]
    rw [← relocate_unfamiliar h]
    rfl

/-- A run over moved lines leaves what the run over the lines does, with the ranges moved.  The lines
need not be moved by the same number of bytes. -/
theorem run_moved (ctx : ParseContext) {lines lines' : List SourceLine}
    (h : List.Forall₂ (fun line line' => ∃ n, line.Moved f n line') lines lines') (p : Pass) :
    (p.relocate f).run ctx lines' = (p.run ctx lines).mapState (relocate f) := by
  induction h generalizing p with
  | nil => rfl
  | cons hline _ ih =>
    obtain ⟨n, hline⟩ := hline
    rw [run, run, step_moved hline]
    exact Outcome.andThen_mapState (fun q _ => ih q) _

theorem result_mapState (f : TextRange → TextRange) (o : Step Unit) :
    result (o.mapState (relocate f)) = (result o).map (Report.relocate f) := by
  cases o <;> rfl

end Pass
end Comfort
