import Comfort.Proofs.Line.Meaning
import Comfort.Proofs.Simulation

/-!
One pass over the lines of a document.

A pass goes over the lines from left to right, each of them once, and keeps one flag beside what it
has gathered: whether a stage is open.  A line is handled by its meaning and the flag alone, without
a cursor and without a look at the lines that follow.
-/

namespace Comfort
namespace Record

/-- The stages with an element added to the last one. -/
def withElement (element : StageElement) : List Stage → List Stage
  | [] => []
  | [stage] => [{ stage with elements := stage.elements ++ [element] }]
  | stage :: rest => stage :: withElement element rest

theorem withElement_append_singleton (element : StageElement) (stages : List Stage)
    (stage : Stage) :
    withElement element (stages ++ [stage])
      = stages ++ [{ stage with elements := stage.elements ++ [element] }] := by
  induction stages with
  | nil => rfl
  | cons first rest ih =>
    cases rest with
    | nil => rfl
    | cons second rest =>
      show first :: withElement element (second :: rest ++ [stage]) = _
      rw [ih]
      rfl

/-- What is gathered from all stages is followed by what is gathered from the new element. -/
theorem flatMap_withElement {α : Type} {gather : Stage → List α} {element : StageElement} {a : α}
    (hgather : ∀ stage : Stage,
      gather { stage with elements := stage.elements ++ [element] } = gather stage ++ [a])
    {stages : List Stage} (h : stages ≠ []) :
    (withElement element stages).flatMap gather = stages.flatMap gather ++ [a] := by
  obtain ⟨before, last, rfl⟩ := (List.eq_nil_or_concat stages).resolve_left h
  rw [List.concat_eq_append, withElement_append_singleton]
  simp only [List.flatMap_append, List.flatMap_cons, List.flatMap_nil, List.append_nil,
    hgather last, List.append_assoc]

end Record

namespace Report

def addElement (r : Report) (element : StageElement) : Report :=
  { r with record := { r.record with stages := Record.withElement element r.record.stages } }

def spell (r : Report) (ctx : ParseContext) (c : Capture) : Report :=
  if ctx.checkSpelling then r.addWords (Text.words c.range.start c.value.toList) else r

end Report

structure Pass where
  inStage : Bool := false
  report : Report := {}
  seen : List String := []
  trace : List String := []

namespace Pass

abbrev Step (α : Type) := Outcome Pass ParseError α

def traceLine (p : Pass) (line : SourceLine) : Pass :=
  { p with trace := p.trace ++ [Session.lineTrace line] }

def diagnose (p : Pass) (message : String) (range : TextRange) : Pass :=
  { p with report := p.report.addDiagnostic message range }

def spell (ctx : ParseContext) (p : Pass) (c : Capture) : Pass :=
  { p with report := p.report.spell ctx c }

/-! ## Outside a stage -/

/-- A line that has no meaning where it stands ends the stage, if there is one. -/
def unfamiliar (p : Pass) (line : SourceLine) : Pass :=
  { p.diagnose ("Unfamiliar syntax: " ++ line.text) line.contentRange with inStage := false }

def comment (p : Pass) (text : Capture) : Pass :=
  { p with report := p.report.addComment text.value }

/-- A field takes the trimmed text, whatever it was before. -/
def setField (ctx : ParseContext) (p : Pass) (line : SourceLine) (field : Field)
    (label text : Capture) : Pass :=
  let value := trimmed text.value
  let p :=
    if field = .name ∧ value = "" then p.diagnose "Quest name required!" line.contentRange else p
  let p := if field.isProse then p.spell ctx text else p
  let report := p.report.addHover field.hoverText label.range
  { p with inStage := false, report := { report with record := field.set value report.record } }

/-! ## Ids and speakers -/

/-- A written id that is taken is reported.  A line without an id gets a new one, with an edit. -/
def claim (p : Pass) (line : SourceLine) : Option Capture → Step String
  | some id =>
    if p.seen.contains id.value then .done (p.diagnose ("Duplicate id: " ++ id.value) id.range) id.value
    else .done { p with seen := id.value :: p.seen } id.value
  | none =>
    match Ident.fresh? p.seen (Session.idSeed line) with
    | none => .failed p (.noFreeId line.index)
    | some id =>
      let report := p.report.addEdit (Session.idPlace line) (" #" ++ id)
      .done { p with seen := id :: p.seen, report := report } id

/-- What is written for a speaker, and whether it is known not to be an allowed one. -/
def speaker (ctx : ParseContext) (p : Pass) : Option Capture → Step (Option String × Bool)
  | none => .done p (none, false)
  | some c =>
    match ctx.speakers with
    | .error (.notFound _) => .done p (some (trimmed c.value), false)
    | .error cause => .failed p (.schema cause)
    | .ok speakers =>
      let report := p.report.addCompletion c.range (Session.candidates speakers)
      match speakers.find? fun speaker => speaker.isNamed c.value with
      | some found =>
        let content := found.label ++ " (" ++ found.id ++ ")"
        .done { p with report := report.addHover content c.range } (some found.id, false)
      | none =>
        .done { p with report := report.addDiagnostic ("Unknown speaker: " ++ c.value) c.range }
          (some (trimmed c.value), true)

/-! ## Stages -/

/-- A header opens a new stage without elements. -/
def openStage (ctx : ParseContext) (p : Pass) (line : SourceLine) (name : Capture)
    (id : Option Capture) : Step Unit :=
  let p :=
    if trimmed name.value = "" then p.diagnose "Stage name required!" line.contentRange else p
  ((p.spell ctx name).claim line id).andThen fun p id =>
    let stage : Stage := { id := some id, name := trimmed name.value, elements := [] }
    let entry := "stage " ++ id ++ " at line " ++ toString line.index
    .done { p with
      inStage := true
      report := p.report.addStage stage
      trace := p.trace ++ [entry] } ()

/-- One element is added to the stage that is open. -/
def addElement (ctx : ParseContext) (p : Pass) (line : SourceLine) (speaker : Option Capture)
    (text : Capture) (id : Option Capture) : Step Unit :=
  let value := trimmed text.value
  let style := if speaker.isSome then ElementStyle.dialogue else .text
  ((p.spell ctx text).speaker ctx speaker).andThen fun p (speaker, speakerUnknown) =>
    let p := if value = "" then p.diagnose (Session.missingText style) line.contentRange else p
    (p.claim line id).andThen fun p id =>
      let element : StageElement :=
        { style := style, id := some id, speaker := speaker, speakerUnknown := speakerUnknown,
          text := value }
      .done { p with report := p.report.addElement element } ()

/-! ## The pass -/

/-- What a line does to a pass. -/
def step (ctx : ParseContext) (p : Pass) (line : SourceLine) : Step Unit :=
  match line.meaning ctx.labels with
  | .blank => .done p ()
  | .comment text =>
    if p.inStage then .done (p.comment text) () else .done ((p.traceLine line).comment text) ()
  | .field field label text => .done ((p.traceLine line).setField ctx line field label text) ()
  | .header name id => (p.traceLine line).openStage ctx line name id
  | .element speaker text id =>
    if p.inStage then (p.traceLine line).addElement ctx line speaker text id
    else .done ((p.traceLine line).unfamiliar line) ()
  | .other => .done ((p.traceLine line).unfamiliar line) ()

/-- Go over the lines. -/
def run (ctx : ParseContext) (p : Pass) : List SourceLine → Step Unit
  | [] => .done p ()
  | line :: rest => (p.step ctx line).andThen fun p _ => run ctx p rest

theorem run_append (ctx : ParseContext) (p : Pass) (a b : List SourceLine) :
    p.run ctx (a ++ b) = (p.run ctx a).andThen fun p _ => p.run ctx b := by
  induction a generalizing p with
  | nil => rfl
  | cons line rest ih =>
    show (p.step ctx line).andThen (fun p _ => p.run ctx (rest ++ b))
      = ((p.step ctx line).andThen fun p _ => p.run ctx rest).andThen fun p _ => p.run ctx b
    cases p.step ctx line with
    | done q u => exact ih q
    | failed q e => rfl

/-! ## The open stage -/

/-- While the flag is on there is a stage to add elements to. -/
def HasStage (p : Pass) : Prop :=
  p.inStage = true → p.report.record.stages ≠ []

@[simp] theorem record_diagnose (p : Pass) (message : String) (range : TextRange) :
    (p.diagnose message range).report.record = p.report.record := rfl

@[simp] theorem record_spell (ctx : ParseContext) (p : Pass) (c : Capture) :
    (p.spell ctx c).report.record = p.report.record := by
  simp only [spell, Report.spell]
  split <;> rfl

/-- Taking an id leaves the record and the words. -/
theorem claim_leaves {p q : Pass} {line : SourceLine} {id : Option Capture} {a : String}
    (h : p.claim line id = .done q a) :
    q.report.record = p.report.record ∧ q.report.words = p.report.words := by
  unfold claim at h
  split at h
  · split at h <;> cases h <;> exact ⟨rfl, rfl⟩
  · split at h <;> cases h
    exact ⟨rfl, rfl⟩

theorem record_claim {p q : Pass} {line : SourceLine} {id : Option Capture} {a : String}
    (h : p.claim line id = .done q a) : q.report.record = p.report.record :=
  (claim_leaves h).1

/-- Looking up a speaker leaves the record and the words. -/
theorem speaker_leaves {ctx : ParseContext} {p q : Pass} {c : Option Capture}
    {a : Option String × Bool} (h : p.speaker ctx c = .done q a) :
    q.report.record = p.report.record ∧ q.report.words = p.report.words := by
  unfold speaker at h
  split at h
  · cases h
    exact ⟨rfl, rfl⟩
  · split at h
    · cases h
      exact ⟨rfl, rfl⟩
    · cases h
    · split at h <;> cases h <;> exact ⟨rfl, rfl⟩

theorem record_speaker {ctx : ParseContext} {p q : Pass} {c : Option Capture}
    {a : Option String × Bool} (h : p.speaker ctx c = .done q a) :
    q.report.record = p.report.record :=
  (speaker_leaves h).1

theorem withElement_ne_nil {element : StageElement} {stages : List Stage} (h : stages ≠ []) :
    Record.withElement element stages ≠ [] := by
  match stages with
  | [_] => simp [Record.withElement]
  | _ :: _ :: _ => simp [Record.withElement]

theorem hasStage_openStage {ctx : ParseContext} {p q : Pass} {line : SourceLine} {name : Capture}
    {id : Option Capture} (h : p.openStage ctx line name id = .done q ()) : q.HasStage := by
  unfold openStage at h
  obtain ⟨t, a, -, h⟩ := Outcome.andThen_eq_done.1 h
  cases h
  intro _
  simp [Report.addStage]

theorem hasStage_addElement {ctx : ParseContext} {p q : Pass} {line : SourceLine}
    {speaker : Option Capture} {text : Capture} {id : Option Capture} (hp : p.report.record.stages ≠ [])
    (h : p.addElement ctx line speaker text id = .done q ()) : q.HasStage := by
  unfold addElement at h
  obtain ⟨t, a, ht, h⟩ := Outcome.andThen_eq_done.1 h
  obtain ⟨u, b, hu, h⟩ := Outcome.andThen_eq_done.1 h
  cases h
  intro _
  have hr : u.report.record = p.report.record := by
    rw [record_claim hu]
    split
    · rw [record_diagnose, record_speaker ht, record_spell]
    · rw [record_speaker ht, record_spell]
  refine withElement_ne_nil ?_
  rw [hr]
  exact hp

theorem hasStage_step {ctx : ParseContext} {p q : Pass} {line : SourceLine} (hp : p.HasStage)
    (h : p.step ctx line = .done q ()) : q.HasStage := by
  unfold step at h
  cases hm : line.meaning ctx.labels with
  | blank =>
    rw [hm] at h
    cases h
    exact hp
  | comment text =>
    rw [hm] at h
    dsimp only at h
    split at h <;> cases h <;> exact hp
  | field field label text =>
    rw [hm] at h
    cases h
    exact fun hin => by cases hin
  | header name id =>
    rw [hm] at h
    exact hasStage_openStage h
  | element speaker text id =>
    rw [hm] at h
    dsimp only at h
    split at h
    · next hin =>
      have ht : (p.traceLine line).report.record.stages ≠ [] := hp hin
      exact hasStage_addElement ht h
    · cases h
      exact fun hin => by cases hin
  | other =>
    rw [hm] at h
    cases h
    exact fun hin => by cases hin

theorem hasStage_run {ctx : ParseContext} {p q : Pass} {lines : List SourceLine} (hp : p.HasStage)
    (h : p.run ctx lines = .done q ()) : q.HasStage := by
  induction lines generalizing p with
  | nil =>
    cases h
    exact hp
  | cons line rest ih =>
    obtain ⟨t, _, ht, h⟩ := Outcome.andThen_eq_done.1 h
    exact ih (hasStage_step hp ht) h

/-- The report of a pass that is done, or why it failed. -/
def result : Step Unit → Except ParseFailure Report
  | .done p _ => .ok p.report
  | .failed p e => .error { error := e, trace := p.trace }

end Pass
end Comfort
