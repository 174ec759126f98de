import Comfort.Proofs.Pass.Basic

/-!
What further lines leave of a report.

A step of a pass adds its notes, comments and stages behind those that are there, and the only stage
that it can change is the last one, which may gain an element.  So the report of a run begins with
the report that the run started from: `extends_run`.
-/

namespace Comfort

/-- The stages of the first list come first in the second one.  Only the last of them may have gained
elements. -/
inductive Continues : List Stage → List Stage → Prop where
  | nil (more : List Stage) : Continues [] more
  | last {stage stage' : Stage} (id : stage'.id = stage.id) (name : stage'.name = stage.name)
      (elements : stage.elements <+: stage'.elements) (more : List Stage) :
      Continues [stage] (stage' :: more)
  | cons (stage : Stage) {a b : List Stage} (h : Continues a b) :
      Continues (stage :: a) (stage :: b)

theorem continues_append (a more : List Stage) : Continues a (a ++ more) := by
  induction a with
  | nil => exact .nil more
  | cons stage rest ih => exact .cons stage ih

theorem continues_refl (a : List Stage) : Continues a a := by
  have h := continues_append a []
  rwa [List.append_nil] at h

theorem continues_withElement (element : StageElement) (stages : List Stage) :
    Continues stages (Record.withElement element stages) := by
  induction stages with
  | nil => exact .nil []
  | cons stage rest ih =>
    cases rest with
    | nil =>
      refine .last ?_ ?_ ?_ []
      · rfl
      · rfl
      · exact List.prefix_append _ _
    | cons second rest => exact .cons stage ih

theorem Continues.trans {a b c : List Stage} (h : Continues a b) (h' : Continues b c) :
    Continues a c := by
  induction h generalizing c with
  | nil => exact .nil c
  | last id name elements more =>
    cases h' with
    | last id' name' elements' more' =>
      exact .last (id'.trans id) (name'.trans name) (elements.trans elements') more'
    | cons _ h' => exact .last id name elements _
  | cons stage h ih =>
    cases h' with
    | last id name elements more =>
      -- the second list is this stage alone, so there is no other one in the first list
      cases h with
      | nil => exact .last id name elements more
    | cons _ h' => exact .cons stage (ih h')

/-! ## Reports -/

namespace Report

/-- What the first report says comes first in the second one. -/
structure Extends (r r' : Report) : Prop where
  diagnostics : r.diagnostics <+: r'.diagnostics
  hovers : r.hovers <+: r'.hovers
  edits : r.edits <+: r'.edits
  completions : r.completions <+: r'.completions
  words : r.words <+: r'.words
  comments : r.record.comments <+: r'.record.comments
  stages : Continues r.record.stages r'.record.stages

theorem extends_refl (r : Report) : r.Extends r :=
  ⟨List.prefix_refl _, List.prefix_refl _, List.prefix_refl _, List.prefix_refl _,
    List.prefix_refl _, List.prefix_refl _, continues_refl _⟩

variable {r r' : Report}

theorem Extends.addDiagnostic (h : r.Extends r') (message : String) (range : TextRange) :
    r.Extends (r'.addDiagnostic message range) :=
  { h with diagnostics := h.diagnostics.trans (List.prefix_append _ _) }

theorem Extends.addHover (h : r.Extends r') (content : String) (range : TextRange) :
    r.Extends (r'.addHover content range) :=
  { h with hovers := h.hovers.trans (List.prefix_append _ _) }

theorem Extends.addEdit (h : r.Extends r') (range : TextRange) (newText : String) :
    r.Extends (r'.addEdit range newText) :=
  { h with edits := h.edits.trans (List.prefix_append _ _) }

theorem Extends.addCompletion (h : r.Extends r') (range : TextRange) (candidates : List String) :
    r.Extends (r'.addCompletion range candidates) :=
  { h with completions := h.completions.trans (List.prefix_append _ _) }

theorem Extends.spell (h : r.Extends r') (ctx : ParseContext) (c : Capture) :
    r.Extends (r'.spell ctx c) := by
  unfold Report.spell
  split
  · exact { h with words := h.words.trans (List.prefix_append _ _) }
  · exact h

theorem Extends.addComment (h : r.Extends r') (text : String) : r.Extends (r'.addComment text) :=
  { h with comments := h.comments.trans (List.prefix_append _ _) }

theorem Extends.addStage (h : r.Extends r') (stage : Stage) : r.Extends (r'.addStage stage) :=
  { h with stages := h.stages.trans (continues_append _ _) }

theorem Extends.addElement (h : r.Extends r') (element : StageElement) :
    r.Extends (r'.addElement element) :=
  { h with stages := h.stages.trans (continues_withElement _ _) }

/-- Setting a field leaves the comments and the stages. -/
theorem Extends.set (h : r.Extends r') (field : Field) (value : String) :
    r.Extends { r' with record := field.set value r'.record } := by
  cases field <;>
    exact ⟨h.diagnostics, h.hovers, h.edits, h.completions, h.words, h.comments, h.stages⟩

end Report

/-! ## Passes -/

namespace Pass

variable {ctx : ParseContext} {r : Report} {p q : Pass} {line : SourceLine}

theorem extends_diagnoseIf (h : r.Extends p.report) (b : Prop) [Decidable b] (message : String)
    (range : TextRange) : r.Extends (if b then p.diagnose message range else p).report := by
  split
  · exact h.addDiagnostic message range
  · exact h

theorem extends_setField (h : r.Extends p.report) (field : Field) (label text : Capture) :
    r.Extends (p.setField ctx line field label text).report := by
  unfold setField
  dsimp only
  refine (Report.Extends.addHover ?_ _ _).set field _
  have hnamed := extends_diagnoseIf h (field = .name ∧ trimmed text.value = "")
    "Quest name required!" line.contentRange
  split
  · exact hnamed.spell ctx text
  · exact hnamed

theorem extends_claim {id : Option Capture} {a : String} (h : r.Extends p.report)
    (hd : p.claim line id = .done q a) : r.Extends q.report := by
  unfold claim at hd
  split at hd
  · split at hd
    · cases hd
      exact h.addDiagnostic _ _
    · cases hd
      exact h
  · split at hd
    · cases hd
    · cases hd
      exact h.addEdit _ _

theorem extends_speaker {c : Option Capture} {a : Option String × Bool} (h : r.Extends p.report)
    (hd : p.speaker ctx c = .done q a) : r.Extends q.report := by
  unfold speaker at hd
  split at hd
  · cases hd
    exact h
  · split at hd
    · cases hd
      exact h
    · cases hd
    · split at hd
      · cases hd
        exact (h.addCompletion _ _).addHover _ _
      · cases hd
        exact (h.addCompletion _ _).addDiagnostic _ _

theorem extends_openStage {name : Capture} {id : Option Capture} (h : r.Extends p.report)
    (hd : p.openStage ctx line name id = .done q ()) : r.Extends q.report := by
  unfold openStage at hd
  obtain ⟨t, a, ht, hd⟩ := Outcome.andThen_eq_done.1 hd
  cases hd
  have hnamed := extends_diagnoseIf h (trimmed name.value = "") "Stage name required!"
    line.contentRange
  exact (extends_claim (hnamed.spell ctx name) ht).addStage _

theorem extends_addElement {speaker : Option Capture} {text : Capture} {id : Option Capture}
    (h : r.Extends p.report) (hd : p.addElement ctx line speaker text id = .done q ()) :
    r.Extends q.report := by
  unfold addElement at hd
  obtain ⟨t, a, ht, hd⟩ := Outcome.andThen_eq_done.1 hd
  obtain ⟨u, b, hu, hd⟩ := Outcome.andThen_eq_done.1 hd
  cases hd
  have hspelled : r.Extends (p.spell ctx text).report := h.spell ctx text
  have hfound : r.Extends t.report := extends_speaker hspelled ht
  exact (extends_claim (extends_diagnoseIf hfound _ _ _) hu).addElement _

theorem extends_step (h : r.Extends p.report) (hd : p.step ctx line = .done q ()) :
    r.Extends q.report := by
  have htraced : r.Extends (p.traceLine line).report := h
  unfold step at hd
  cases hm : line.meaning ctx.labels with
  | blank =>
    rw [hm] at hd
    cases hd
    exact h
  | comment text =>
    rw [hm] at hd
    dsimp only at hd
    split at hd <;> cases hd <;> exact h.addComment text.value
  | field field label text =>
    rw [hm] at hd
    cases hd
    exact extends_setField htraced field label text
  | header name id =>
    rw [hm] at hd
    exact extends_openStage htraced hd
  | element speaker text id =>
    rw [hm] at hd
    dsimp only at hd
    split at hd
    · exact extends_addElement htraced hd
    · cases hd
      exact h.addDiagnostic _ _
  | other =>
    rw [hm] at hd
    cases hd
    exact h.addDiagnostic _ _

/-- A run leaves what was reported before it in front of what it reports. -/
theorem extends_run {lines : List SourceLine} (h : r.Extends p.report)
    (hd : p.run ctx lines = .done q ()) : r.Extends q.report := by
  induction lines generalizing p with
  | nil =>
    cases hd
    exact h
  | cons line rest ih =>
    obtain ⟨t, _, ht, hd⟩ := Outcome.andThen_eq_done.1 hd
    exact ih (extends_step h ht) hd

end Pass
end Comfort
