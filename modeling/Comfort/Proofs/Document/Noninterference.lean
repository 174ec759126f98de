import Comfort.Proofs.Pass.Reading
import Comfort.Proofs.Store.Speakers

/-!
What the store and the spelling check have no say in.

A reading looks into the store for the speakers of dialogues only, and the spelling switch decides
about the words only.  `Pass.Concurs` relates two passes that have gathered the same apart from
that.  A step keeps it whatever the two contexts are, as long as their labels are the same and
neither step fails, because looking up a speaker touches nothing that an id or another line depends
on (`Pass.concurs_step`).  So any two readings of a text agree: `parse_agrees`.
-/

namespace Comfort

/-! ## Without speakers -/

/-- The element with its speaker left out. -/
def StageElement.unvoiced (e : StageElement) : StageElement :=
  { e with speaker := none, speakerUnknown := false }

def Stage.unvoiced (stage : Stage) : Stage :=
  { stage with elements := stage.elements.map StageElement.unvoiced }

def Diagnostic.isUnknownSpeaker (d : Diagnostic) : Bool :=
  "Unknown speaker: ".toList.isPrefixOf d.message.toList

theorem isUnknownSpeaker_unknown (name : String) (range : TextRange) :
    Diagnostic.isUnknownSpeaker ⟨"Unknown speaker: " ++ name, range⟩ = true := by
  rw [Diagnostic.isUnknownSpeaker, String.toList_append]
  rfl

namespace Record

def unvoiced (r : Record) : Record :=
  { r with stages := r.stages.map Stage.unvoiced }

theorem map_unvoiced_withElement (element : StageElement) (stages : List Stage) :
    (withElement element stages).map Stage.unvoiced
      = withElement element.unvoiced (stages.map Stage.unvoiced) := by
  induction stages with
  | nil => rfl
  | cons stage rest ih =>
    cases rest with
    | nil => simp [withElement, Stage.unvoiced]
    | cons second rest =>
      show stage.unvoiced :: (withElement element (second :: rest)).map Stage.unvoiced = _
      rw [ih]
      rfl

theorem unvoiced_set (field : Field) (value : String) (r : Record) :
    (field.set value r).unvoiced = field.set value r.unvoiced := by
  cases field <;> rfl

end Record

/-! ## Reports -/

namespace Report

/-- The diagnostics that are not about an unknown speaker. -/
def otherDiagnostics (r : Report) : List Diagnostic :=
  r.diagnostics.filter fun d => !d.isUnknownSpeaker

/-- Two reports, each read in its own context, say the same apart from speakers.  Their words are
the same where both contexts collect them or neither does, and there are none where they are not
collected. -/
structure Concurs (ctx ctx' : ParseContext) (r r' : Report) : Prop where
  edits : r'.edits = r.edits
  diagnostics : r'.otherDiagnostics = r.otherDiagnostics
  record : r'.record.unvoiced = r.record.unvoiced
  words : ctx'.checkSpelling = ctx.checkSpelling → r'.words = r.words
  silent : ctx.checkSpelling = false → r.words = []
  silent' : ctx'.checkSpelling = false → r'.words = []

variable {ctx ctx' : ParseContext} {r r' : Report}

theorem Concurs.symm (h : Concurs ctx ctx' r r') : Concurs ctx' ctx r' r :=
  ⟨h.edits.symm, h.diagnostics.symm, h.record.symm, fun hs => (h.words hs.symm).symm, h.silent',
    h.silent⟩

theorem otherDiagnostics_addDiagnostic (r : Report) (message : String) (range : TextRange) :
    (r.addDiagnostic message range).otherDiagnostics = r.otherDiagnostics
      ++ if Diagnostic.isUnknownSpeaker ⟨message, range⟩ then [] else [⟨message, range⟩] := by
  unfold otherDiagnostics Report.addDiagnostic
  rw [List.filter_append, List.filter_singleton]
  cases Diagnostic.isUnknownSpeaker ⟨message, range⟩ <;> rfl

theorem Concurs.addDiagnostic (h : Concurs ctx ctx' r r') (message : String) (range : TextRange) :
    Concurs ctx ctx' (r.addDiagnostic message range) (r'.addDiagnostic message range) := by
  refine { h with diagnostics := ?_ }
  rw [otherDiagnostics_addDiagnostic, otherDiagnostics_addDiagnostic, h.diagnostics]

/-- An unknown speaker may be reported in one of the two readings only. -/
theorem Concurs.addUnknownSpeaker (h : Concurs ctx ctx' r r') (name : String) (range : TextRange) :
    Concurs ctx ctx' r (r'.addDiagnostic ("Unknown speaker: " ++ name) range) := by
  refine { h with diagnostics := ?_ }
  rw [otherDiagnostics_addDiagnostic, if_pos (isUnknownSpeaker_unknown name range), List.append_nil,
    h.diagnostics]

theorem Concurs.addEdit (h : Concurs ctx ctx' r r') (range : TextRange) (newText : String) :
    Concurs ctx ctx' (r.addEdit range newText) (r'.addEdit range newText) :=
  { h with edits := congrArg (· ++ [_]) h.edits }

theorem Concurs.spell (h : Concurs ctx ctx' r r') (c : Capture) :
    Concurs ctx ctx' (r.spell ctx c) (r'.spell ctx' c) := by
  unfold Report.spell
  cases hs : ctx.checkSpelling with
  | true =>
    cases hs' : ctx'.checkSpelling with
    | true =>
      have hwords : r'.words = r.words := h.words (hs'.trans hs.symm)
      exact { h with
        words := fun _ => congrArg (· ++ Text.words c.range.start c.value.toList) hwords
        silent := fun hoff => absurd (hs.symm.trans hoff) (by decide)
        silent' := fun hoff => absurd (hs'.symm.trans hoff) (by decide) }
    | false =>
      exact { h with
        words := fun hsame => absurd (hs'.symm.trans (hsame.trans hs)) (by decide)
        silent := fun hoff => absurd (hs.symm.trans hoff) (by decide) }
  | false =>
    cases hs' : ctx'.checkSpelling with
    | true =>
      exact { h with
        words := fun hsame => absurd (hs'.symm.trans (hsame.trans hs)) (by decide)
        silent' := fun hoff => absurd (hs'.symm.trans hoff) (by decide) }
    | false => exact h

/-- The record takes the same on both sides. -/
theorem Concurs.withRecord (h : Concurs ctx ctx' r r') {record record' : Record}
    (hrecord : record'.unvoiced = record.unvoiced) :
    Concurs ctx ctx' { r with record := record } { r' with record := record' } :=
  { h with record := hrecord }

theorem Concurs.addComment (h : Concurs ctx ctx' r r') (text : String) :
    Concurs ctx ctx' (r.addComment text) (r'.addComment text) := by
  have hboth := h.record
  refine h.withRecord ?_
  simp only [Record.unvoiced, Record.mk.injEq] at hboth ⊢
  obtain ⟨hname, hdescription, hunlocked, hcomments, hstages⟩ := hboth
  exact ⟨hname, hdescription, hunlocked, by rw [hcomments], hstages⟩

theorem Concurs.addStage (h : Concurs ctx ctx' r r') (stage : Stage) :
    Concurs ctx ctx' (r.addStage stage) (r'.addStage stage) := by
  have hboth := h.record
  refine h.withRecord ?_
  simp only [Record.unvoiced, Record.mk.injEq, List.map_append] at hboth ⊢
  obtain ⟨hname, hdescription, hunlocked, hcomments, hstages⟩ := hboth
  exact ⟨hname, hdescription, hunlocked, hcomments, by rw [hstages]⟩

theorem Concurs.addElement (h : Concurs ctx ctx' r r') {element element' : StageElement}
    (he : element'.unvoiced = element.unvoiced) :
    Concurs ctx ctx' (r.addElement element) (r'.addElement element') := by
  have hboth := h.record
  refine h.withRecord ?_
  simp only [Record.unvoiced, Record.mk.injEq, Record.map_unvoiced_withElement] at hboth ⊢
  obtain ⟨hname, hdescription, hunlocked, hcomments, hstages⟩ := hboth
  exact ⟨hname, hdescription, hunlocked, hcomments, by rw [hstages, he]⟩

theorem Concurs.set (h : Concurs ctx ctx' r r') (field : Field) (value : String) :
    Concurs ctx ctx' { r with record := field.set value r.record }
      { r' with record := field.set value r'.record } := by
  refine h.withRecord ?_
  rw [Record.unvoiced_set, Record.unvoiced_set, h.record]

end Report

/-! ## Passes -/

namespace Pass

variable {ctx ctx' : ParseContext} {p p' q q' : Pass} {line : SourceLine}

/-- Two passes, each in its own context, stand at the same place and have gathered the same apart
from speakers. -/
structure Concurs (ctx ctx' : ParseContext) (p p' : Pass) : Prop where
  inStage : p'.inStage = p.inStage
  seen : p'.seen = p.seen
  report : Report.Concurs ctx ctx' p.report p'.report

theorem concurs_empty (ctx ctx' : ParseContext) : Concurs ctx ctx' {} {} :=
  ⟨rfl, rfl, rfl, rfl, rfl, fun _ => rfl, fun _ => rfl, fun _ => rfl⟩

theorem Concurs.symm (h : Concurs ctx ctx' p p') : Concurs ctx' ctx p' p :=
  ⟨h.inStage.symm, h.seen.symm, h.report.symm⟩

theorem Concurs.diagnoseIf (h : Concurs ctx ctx' p p') (b : Prop) [Decidable b] (message : String)
    (range : TextRange) :
    Concurs ctx ctx' (if b then p.diagnose message range else p)
      (if b then p'.diagnose message range else p') := by
  split
  · exact ⟨h.inStage, h.seen, h.report.addDiagnostic message range⟩
  · exact h

theorem Concurs.spell (h : Concurs ctx ctx' p p') (c : Capture) :
    Concurs ctx ctx' (p.spell ctx c) (p'.spell ctx' c) :=
  ⟨h.inStage, h.seen, h.report.spell c⟩

theorem Concurs.setField (h : Concurs ctx ctx' p p') (line : SourceLine) (field : Field)
    (label text : Capture) :
    Concurs ctx ctx' (p.setField ctx line field label text)
      (p'.setField ctx' line field label text) := by
  have hnamed := h.diagnoseIf (field = .name ∧ trimmed text.value = "") "Quest name required!"
    line.contentRange
  unfold Pass.setField
  dsimp only
  -- A hover is in no field of Concurs, so the hovers that are added here need no proof.
  split
  · have hspelled := hnamed.spell text
    exact ⟨rfl, hspelled.seen, { hspelled.report.set field (trimmed text.value) with }⟩
  · exact ⟨rfl, hnamed.seen, { hnamed.report.set field (trimmed text.value) with }⟩

/-- An id is taken or derived from the ids that are in use and from the line, and from nothing
else. -/
theorem Concurs.claim {id : Option Capture} {a a' : String} (h : Concurs ctx ctx' p p')
    (hd : p.claim line id = .done q a) (hd' : p'.claim line id = .done q' a') :
    Concurs ctx ctx' q q' ∧ a' = a := by
  unfold Pass.claim at hd hd'
  rw [h.seen] at hd'
  cases id with
  | some id =>
    dsimp only at hd hd'
    split at hd
    · next hseen =>
      rw [if_pos hseen] at hd'
      cases hd
      cases hd'
      exact ⟨⟨h.inStage, h.seen, h.report.addDiagnostic _ _⟩, rfl⟩
    · next hseen =>
      rw [if_neg hseen] at hd'
      cases hd
      cases hd'
      exact ⟨⟨h.inStage, rfl, h.report⟩, rfl⟩
  | none =>
    dsimp only at hd hd'
    cases hfresh : Ident.fresh? p.seen (Session.idSeed line) with
    | none =>
      rw [hfresh] at hd
      cases hd
    | some id =>
      rw [hfresh] at hd hd'
      cases hd
      cases hd'
      exact ⟨⟨h.inStage, rfl, h.report.addEdit _ _⟩, rfl⟩

/-- Looking up a speaker adds nothing but what is said of speakers. -/
theorem Concurs.lookUp {c : Option Capture} {who : Option String × Bool} (h : Concurs ctx ctx' p p')
    (hd : p'.speaker ctx' c = .done q' who) : Concurs ctx ctx' p q' := by
  unfold Pass.speaker at hd
  split at hd
  · cases hd
    exact h
  · next c =>
    split at hd
    · cases hd
      exact h
    · cases hd
    · split at hd
      · cases hd
        exact ⟨h.inStage, h.seen, { h.report with }⟩
      · cases hd
        exact ⟨h.inStage, h.seen, { h.report.addUnknownSpeaker c.value c.range with }⟩

theorem Concurs.speaker {c : Option Capture} {who who' : Option String × Bool}
    (h : Concurs ctx ctx' p p') (hd : p.speaker ctx c = .done q who)
    (hd' : p'.speaker ctx' c = .done q' who') : Concurs ctx ctx' q q' :=
  (h.lookUp hd').symm.lookUp hd |>.symm

theorem Concurs.openStage {name : Capture} {id : Option Capture} (h : Concurs ctx ctx' p p')
    (hd : p.openStage ctx line name id = .done q ())
    (hd' : p'.openStage ctx' line name id = .done q' ()) : Concurs ctx ctx' q q' := by
  unfold Pass.openStage at hd hd'
  obtain ⟨t, a, ht, hd⟩ := Outcome.andThen_eq_done.1 hd
  obtain ⟨t', a', ht', hd'⟩ := Outcome.andThen_eq_done.1 hd'
  have hnamed := h.diagnoseIf (trimmed name.value = "") "Stage name required!" line.contentRange
  obtain ⟨hclaimed, rfl⟩ := (hnamed.spell name).claim ht ht'
  cases hd
  cases hd'
  exact ⟨rfl, hclaimed.seen, hclaimed.report.addStage _⟩

theorem Concurs.addElement {speaker : Option Capture} {text : Capture} {id : Option Capture}
    (h : Concurs ctx ctx' p p') (hd : p.addElement ctx line speaker text id = .done q ())
    (hd' : p'.addElement ctx' line speaker text id = .done q' ()) : Concurs ctx ctx' q q' := by
  unfold Pass.addElement at hd hd'
  obtain ⟨t, who, ht, hd⟩ := Outcome.andThen_eq_done.1 hd
  obtain ⟨t', who', ht', hd'⟩ := Outcome.andThen_eq_done.1 hd'
  obtain ⟨u, a, hu, hd⟩ := Outcome.andThen_eq_done.1 hd
  obtain ⟨u', a', hu', hd'⟩ := Outcome.andThen_eq_done.1 hd'
  have hfound : Concurs ctx ctx' t t' := (h.spell text).speaker ht ht'
  obtain ⟨hclaimed, rfl⟩ := (hfound.diagnoseIf _ _ _).claim hu hu'
  cases hd
  cases hd'
  exact ⟨hclaimed.inStage, hclaimed.seen, hclaimed.report.addElement rfl⟩

/-- A step on one line that fails in neither context keeps two passes alike. -/
theorem concurs_step (hl : ctx'.labels = ctx.labels) (h : Concurs ctx ctx' p p')
    (hd : p.step ctx line = .done q ()) (hd' : p'.step ctx' line = .done q' ()) :
    Concurs ctx ctx' q q' := by
  have htraced : Concurs ctx ctx' (p.traceLine line) (p'.traceLine line) :=
    ⟨h.inStage, h.seen, h.report⟩
  have hunfamiliar :
      Concurs ctx ctx' ((p.traceLine line).unfamiliar line) ((p'.traceLine line).unfamiliar line) :=
    ⟨rfl, h.seen, h.report.addDiagnostic _ _⟩
  unfold step at hd hd'
  rw [hl, h.inStage] at hd'
  cases hm : line.meaning ctx.labels with
  | blank =>
    rw [hm] at hd hd'
    cases hd
    cases hd'
    exact h
  | comment text =>
    rw [hm] at hd hd'
    dsimp only at hd hd'
    have hreport := h.report.addComment text.value
    by_cases hin : p.inStage = true
    · rw [if_pos hin] at hd hd'
      cases hd
      cases hd'
      exact ⟨h.inStage, h.seen, hreport⟩
    · rw [if_neg hin] at hd hd'
      cases hd
      cases hd'
      exact ⟨h.inStage, h.seen, hreport⟩
  | field field label text =>
    rw [hm] at hd hd'
    cases hd
    cases hd'
    exact htraced.setField line field label text
  | header name id =>
    rw [hm] at hd hd'
    exact htraced.openStage hd hd'
  | element speaker text id =>
    rw [hm] at hd hd'
    dsimp only at hd hd'
    by_cases hin : p.inStage = true
    · rw [if_pos hin] at hd hd'
      exact htraced.addElement hd hd'
    · rw [if_neg hin] at hd hd'
      cases hd
      cases hd'
      exact hunfamiliar
  | other =>
    rw [hm] at hd hd'
    cases hd
    cases hd'
    exact hunfamiliar

theorem concurs_run (hl : ctx'.labels = ctx.labels) {lines : List SourceLine}
    (h : Concurs ctx ctx' p p') (hd : p.run ctx lines = .done q ())
    (hd' : p'.run ctx' lines = .done q' ()) : Concurs ctx ctx' q q' := by
  induction lines generalizing p p' with
  | nil =>
    cases hd
    cases hd'
    exact h
  | cons line rest ih =>
    obtain ⟨t, _, ht, hd⟩ := Outcome.andThen_eq_done.1 hd
    obtain ⟨t', _, ht', hd'⟩ := Outcome.andThen_eq_done.1 hd'
    exact ih (concurs_step hl h ht ht') hd hd'

end Pass

namespace Document

open Store (gladeStore)

/-- Two readings of a text with the same labels differ in what they say of speakers only, whatever
the stores, the quest schemas and the spelling switches are.  They propose the same edits and report
the same, unknown speakers apart, and their records are the same but for the speakers.  Their words
are the same if both switches are on or both are off, and there are none where a switch is off. -/
theorem parse_agrees {text : String} {store store' : Store} {options options' : ParseOptions}
    {report report' : Report} (hl : options'.labels = options.labels)
    (h : parse text store options = .ok report) (h' : parse text store' options' = .ok report') :
    report'.edits = report.edits ∧
    report'.otherDiagnostics = report.otherDiagnostics ∧
    report'.record.unvoiced = report.record.unvoiced ∧
    (options'.checkSpelling = options.checkSpelling → report'.words = report.words) ∧
    (options.checkSpelling = false → report.words = []) ∧
    (options'.checkSpelling = false → report'.words = []) := by
  obtain ⟨p, hp, rfl⟩ := run_of_parse h
  obtain ⟨p', hp', rfl⟩ := run_of_parse h'
  have hlabels : (ParseContext.ofStore store' options').labels
      = (ParseContext.ofStore store options).labels := hl
  have hagrees := (Pass.concurs_run hlabels (Pass.concurs_empty _ _) hp hp').report
  exact ⟨hagrees.edits, hagrees.diagnostics, hagrees.record, hagrees.words, hagrees.silent,
    hagrees.silent'⟩

/-- A speaker that may speak, one that is not known, and an id that is written twice. -/
def brookText : String := "Stage: One\nNora: hi #e1\nNobody: hush #e1\n"

theorem parse_brookText :
    (parse brookText gladeStore {}).map
        (fun r => (r.diagnostics.map Diagnostic.message, r.words.map Word.text))
      = .ok (["Unknown speaker: Nobody", "Duplicate id: e1"], ["One", "hi", "hush"]) := by
  rw [parse, parseIn_eq_run]
  decide +kernel

theorem parse_brookText_unspelled :
    (parse brookText {} { checkSpelling := false }).map
        (fun r => (r.diagnostics.map Diagnostic.message, r.words.map Word.text))
      = .ok (["Duplicate id: e1"], []) := by
  rw [parse, parseIn_eq_run]
  decide +kernel

theorem parse_agrees_brook :
    ∃ report report', parse brookText gladeStore {} = .ok report ∧
      parse brookText {} { checkSpelling := false } = .ok report' ∧
      report.diagnostics.length = 2 ∧ report.words.length = 3 ∧ report'.diagnostics.length = 1 ∧
      report'.edits = report.edits ∧ report'.otherDiagnostics = report.otherDiagnostics ∧
      report'.record.unvoiced = report.record.unvoiced ∧ report'.words = [] := by
  obtain ⟨report, h, hboth⟩ := exists_of_parse_map parse_brookText
  obtain ⟨report', h', hboth'⟩ := exists_of_parse_map parse_brookText_unspelled
  obtain ⟨hmessages, hwords⟩ := Prod.mk.inj hboth
  obtain ⟨hmessages', -⟩ := Prod.mk.inj hboth'
  have hlabels :
      ({ checkSpelling := false } : ParseOptions).labels = ({} : ParseOptions).labels := rfl
  obtain ⟨hedits, hothers, hrecord, -, -, hsilent⟩ := parse_agrees hlabels h h'
  refine ⟨report, report', h, h', ?_, ?_, ?_, hedits, hothers, hrecord, hsilent rfl⟩
  · rw [← List.length_map, hmessages]
    rfl
  · rw [← List.length_map, hwords]
    rfl
  · rw [← List.length_map, hmessages']
    rfl

end Document
end Comfort
