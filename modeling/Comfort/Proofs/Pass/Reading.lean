import Comfort.Proofs.Document.Sync
import Comfort.Proofs.Pass.Basic

/-!
Reading a document is one pass over its lines.

The reading takes lines from a cursor in two nested loops and looks ahead to find the end of a
stage, and it adds a stage to the record only when it has read all of it.  `parseIn_eq_run` says
that the pass gives the same report, or fails for the same reason and with the same trace.
-/

namespace Comfort

open Outcome (Alike)

variable {ctx : ParseContext} {s : Session} {line : SourceLine} {form : LineForm}

/-! ## Meanings of lines -/

theorem meaning_of_isBlank {labels : GlobalLabels} (h : line.isBlank = true) :
    line.meaning labels = .blank := by
  simp [SourceLine.meaning, h]

theorem meaning_of_classify? (hb : ¬ line.isBlank = true) (h : ctx.classify? line = some form) :
    line.meaning ctx.labels = .ofForm line form := by
  have hc : LineForm.classify? ctx.labels line = some form := h
  simp [SourceLine.meaning, hb, hc]

theorem meaning_of_unclassified (hb : ¬ line.isBlank = true) (h : ctx.classify? line = none) :
    line.meaning ctx.labels = .other := by
  have hc : LineForm.classify? ctx.labels line = none := h
  simp [SourceLine.meaning, hb, hc]

theorem staysInStage_ofForm (line : SourceLine) (form : LineForm) :
    (LineMeaning.ofForm line form).staysInStage = (form.isComment || form.isStageElement) := by
  cases form with
  | label label text =>
    simp only [LineMeaning.ofForm, LineForm.isComment, LineForm.isStageElement]
    split
    · rfl
    · split
      · unfold LineMeaning.ofHeader
        split <;> rfl
      · rfl
  | _ => rfl

/-- A stage goes on with a line when the meaning of the line lets it. -/
theorem continuesStage_eq (ctx : ParseContext) (line : SourceLine) :
    Session.continuesStage ctx line = (line.meaning ctx.labels).staysInStage := by
  unfold Session.continuesStage
  by_cases hb : line.isBlank = true
  · rw [meaning_of_isBlank hb, hb]
    rfl
  · have hb' : line.isBlank = false := by simpa using hb
    cases hc : ctx.classify? line with
    | none =>
      rw [meaning_of_unclassified hb hc, hb']
      rfl
    | some form =>
      rw [meaning_of_classify? hb hc, staysInStage_ofForm, hb']
      rfl

/-! ## Sessions and passes -/

namespace Session

/-- The pass that has gathered what a session has, and the stages that are being read besides. -/
def view (inStage : Bool) (reading : List Stage) (s : Session) : Pass :=
  let record := s.report.record
  { inStage := inStage
    report := { s.report with record := { record with stages := record.stages ++ reading } }
    seen := s.seen
    trace := s.trace }

variable {inStage : Bool} {reading : List Stage}

theorem view_traceLine :
    (s.traceLine line).view inStage reading = (s.view inStage reading).traceLine line := rfl

theorem view_diagnose {message : String} {range : TextRange} :
    (s.diagnose message range).view inStage reading
      = (s.view inStage reading).diagnose message range := rfl

theorem view_spell {c : Capture} :
    (s.spell ctx c).view inStage reading = (s.view inStage reading).spell ctx c := by
  simp only [spell, Pass.spell, Report.spell]
  split <;> rfl

/-! ## Ids and speakers -/

/-- Two runs that fail must have the same trace. -/
def SameTrace (s : Session) (p : Pass) : Prop :=
  p.trace = s.trace

theorem claimId_alike (s : Session) (line : SourceLine) (id : Option Capture) :
    Alike (fun t a p b => b = a ∧ p = t.view inStage reading ∧ t.cursor = s.cursor) SameTrace
      (s.claimId line id) ((s.view inStage reading).claim line id) := by
  cases id with
  | some id =>
    simp only [claimId, claimWritten, Pass.claim]
    by_cases h : s.seen.contains id.value = true
    · have hv : (s.view inStage reading).seen.contains id.value = true := h
      rw [if_pos h, if_pos hv]
      exact .done ⟨rfl, rfl, rfl⟩
    · have hv : ¬ (s.view inStage reading).seen.contains id.value = true := h
      rw [if_neg h, if_neg hv]
      exact .done ⟨rfl, rfl, rfl⟩
  | none =>
    have hv : (s.view inStage reading).seen = s.seen := rfl
    simp only [claimId, Pass.claim, hv]
    cases Ident.fresh? s.seen (idSeed line) with
    | none => exact .failed _ rfl
    | some id => exact .done ⟨rfl, rfl, rfl⟩

theorem elementSpeaker_alike (s : Session) (form : LineForm) :
    Alike (fun t a p b => b = a ∧ p = t.view inStage reading ∧ t.cursor = s.cursor) SameTrace
      (s.elementSpeaker ctx form) ((s.view inStage reading).speaker ctx form.speaker?) := by
  unfold elementSpeaker Pass.speaker
  cases form.speaker? with
  | none => exact .done ⟨rfl, rfl, rfl⟩
  | some c =>
    simp only [resolveSpeaker, lookUpSpeaker]
    cases ctx.speakers with
    | error cause =>
      cases cause with
      | notFound id => exact .done ⟨rfl, rfl, rfl⟩
      | unknownPath path segment => exact .failed _ rfl
      | noMatchingVariant path => exact .failed _ rfl
      | notAMoteReference path => exact .failed _ rfl
    | ok speakers =>
      dsimp only
      cases speakers.find? fun speaker => speaker.isNamed c.value with
      | none => exact .done ⟨rfl, rfl, rfl⟩
      | some speaker => exact .done ⟨rfl, rfl, rfl⟩

/-! ## Stages -/

/-- A stage with further elements. -/
def extend (stage : Stage) (elements : List StageElement) : Stage :=
  { stage with elements := stage.elements ++ elements }

theorem extend_nil (stage : Stage) : extend stage [] = stage := by
  simp [extend]

theorem extend_append (stage : Stage) (a b : List StageElement) :
    extend (extend stage a) b = extend stage (a ++ b) := by
  simp [extend]

theorem view_addElement (stage : Stage) (element : StageElement) :
    { s.view true [stage] with report := (s.view true [stage]).report.addElement element }
      = s.view true [extend stage [element]] := by
  simp only [view, Report.addElement, Record.withElement_append_singleton]
  rfl

theorem view_addStage (stage : Stage) : (s.addStage stage).view true [] = s.view true [stage] := by
  simp [view, addStage, Report.addStage]

theorem readElement_alike {speaker id : Option Capture} {text : Capture} (stage : Stage)
    (h : s.cursor.Took line)
    (hf : form.speaker? = speaker ∧ form.text = text ∧ form.id? = id) :
    Alike
      (fun t element p _ => p = t.view true [extend stage [element]] ∧ t.cursor = s.cursor)
      SameTrace (s.readElement ctx line form)
      (((s.view true [stage]).traceLine line).addElement ctx line speaker text id) := by
  obtain ⟨rfl, rfl, rfl⟩ := hf
  unfold readElement Pass.addElement
  rw [← view_traceLine, ← view_spell]
  refine (elementSpeaker_alike ((s.traceLine line).spell ctx form.text) form).andThen ?_
  rintro t ⟨speaker, unknown⟩ p _ ⟨rfl, rfl, ht⟩
  have htook : t.cursor.Took line := by
    rw [ht, cursor_spell]
    exact h
  dsimp only
  rw [LineCursor.currentRange_of_took htook, ← view_diagnose, ← apply_ite (view true [stage])]
  refine (claimId_alike _ line form.id?).andThen ?_
  rintro u id p _ ⟨rfl, rfl, hu⟩
  refine .done ⟨?_, ?_⟩
  · exact view_addElement stage _
  · rw [hu, ← cursor_traceLine s line, ← cursor_spell ctx (s.traceLine line) form.text, ← ht]
    split <;> rfl

/-- How a session has read a line of the stage `stage`: what the line adds is in the stage, and the
cursor is past the line. -/
def ReadBodyLine (s : Session) (line : SourceLine) (stage : Stage) (t : Session)
    (element : Option StageElement) (p : Pass) (_ : Unit) : Prop :=
  p = t.view true [extend stage element.toList] ∧ t.cursor = s.cursor.advance line

theorem readBodyElement_alike {speaker id : Option Capture} {text : Capture} (stage : Stage)
    (h : s.cursor.Took line)
    (hf : form.speaker? = speaker ∧ form.text = text ∧ form.id? = id) :
    Alike (ReadBodyLine s line stage) SameTrace
      ((s.readElement ctx line form).andThen fun s element =>
        .done (s.advance line) (some element))
      (((s.view true [stage]).traceLine line).addElement ctx line speaker text id) := by
  refine (readElement_alike stage h hf).andThen_left ?_
  rintro t element p _ ⟨rfl, ht⟩
  refine .done ⟨rfl, ?_⟩
  rw [cursor_advance, ht]

theorem readBodyLine_alike (stage : Stage) (h : s.cursor.Took line)
    (hm : (line.meaning ctx.labels).staysInStage = true) :
    Alike (ReadBodyLine s line stage) SameTrace (s.readBodyLine ctx line)
      ((s.view true [stage]).step ctx line) := by
  unfold readBodyLine Pass.step
  by_cases hb : line.isBlank = true
  · rw [if_pos hb, meaning_of_isBlank hb]
    exact .done ⟨by rw [Option.toList_none, extend_nil]; rfl, rfl⟩
  rw [if_neg hb]
  cases hc : ctx.classify? line with
  | none =>
    rw [meaning_of_unclassified hb hc] at hm
    cases hm
  | some form =>
    rw [meaning_of_classify? hb hc] at hm ⊢
    rw [staysInStage_ofForm] at hm
    cases form with
    | comment text => exact .done ⟨by rw [Option.toList_none, extend_nil]; rfl, rfl⟩
    | dialogue speaker text id => exact readBodyElement_alike stage h ⟨rfl, rfl, rfl⟩
    | narration text id => exact readBodyElement_alike stage h ⟨rfl, rfl, rfl⟩
    | label label text => cases hm
    | stage label name id => cases hm

/-- The body is read to its end, which is where `rest` begins. -/
theorem readBody_alike (stage : Stage) {body rest : List SourceLine} (hs : s.cursor.Synced)
    (ha : s.cursor.ahead = body ++ rest)
    (hb : ∀ line ∈ body, (line.meaning ctx.labels).staysInStage = true) :
    Alike
      (fun t elements p _ =>
        p = t.view true [extend stage elements] ∧ t.cursor.Synced ∧ t.cursor.ahead = rest)
      SameTrace (s.readBody ctx body) ((s.view true [stage]).run ctx body) := by
  induction body generalizing s stage with
  | nil => exact .done ⟨by rw [extend_nil], hs, ha⟩
  | cons line body ih =>
    have htook := LineCursor.took_take hs ha
    have htake : s.take
        = .done { s with cursor := { s.cursor with ahead := body ++ rest, current := some line } }
            (some line) := by
      rw [take, LineCursor.take_cons hs ha]
      rfl
    rw [readBody, htake, Outcome.andThen_done]
    refine (readBodyLine_alike stage htook (hb line (List.mem_cons_self ..))).andThen ?_
    rintro t element p _ ⟨rfl, ht⟩
    have hsynced : t.cursor.Synced := by
      rw [ht]
      exact LineCursor.synced_advance htook
    have hahead : t.cursor.ahead = body ++ rest := by
      rw [ht]
      rfl
    refine (ih (extend stage element.toList) hsynced hahead
      fun l hl => hb l (List.mem_cons_of_mem _ hl)).andThen_left ?_
    rintro u elements p _ ⟨rfl, hu⟩
    refine .done ⟨?_, hu⟩
    rw [extend_append]

theorem readHeader_alike {inStage : Bool} (name : Capture) (id : Option Capture)
    (h : s.cursor.Took line) :
    Alike
      (fun t id p _ =>
        p = t.view true [{ id := some id, name := trimmed name.value, elements := [] }]
          ∧ t.cursor = s.cursor.advance line)
      SameTrace (s.readHeader ctx line name id) ((s.view inStage []).openStage ctx line name id) := by
  unfold readHeader Pass.openStage
  dsimp only
  rw [LineCursor.currentRange_of_took h, ← view_diagnose, ← apply_ite (view inStage []), ← view_spell]
  refine (claimId_alike _ line id).andThen ?_
  rintro t id p _ ⟨rfl, rfl, ht⟩
  refine .done ⟨?_, ?_⟩
  · simp only [view, Report.addStage, List.append_nil]
    rfl
  · rw [cursor_advance, cursor_addTrace, ht, cursor_spell]
    split <;> rfl

/-! ## Lines outside a stage -/

/-- Where a reading stands between two lines outside a stage.  The flag of the pass may still be on,
but then the next line would end the stage. -/
structure Between (ctx : ParseContext) (s : Session) (p : Pass) : Prop where
  view : p = s.view p.inStage []
  synced : s.cursor.Synced
  ends : p.inStage = true →
    ∀ line ∈ s.cursor.ahead.head?, (line.meaning ctx.labels).staysInStage = false

theorem readStage_alike {inStage : Bool} {name : Capture} {id : Option Capture}
    {body rest : List SourceLine} (h : s.cursor.Took line)
    (hf : stageHeader? line form = some (name, id)) (ha : s.cursor.ahead = body ++ rest)
    (hb : s.cursor.ahead.takeWhile (continuesStage ctx) = body) :
    Alike
      (fun t _ p _ => p = t.view true [] ∧ t.cursor.Synced ∧ t.cursor.ahead = rest)
      SameTrace (s.readStage ctx line form)
      (((s.view inStage []).openStage ctx line name id).andThen fun p _ => p.run ctx body) := by
  unfold readStage
  rw [hf]
  refine (readHeader_alike name id h).andThen ?_
  rintro t id p _ ⟨rfl, ht⟩
  have hsynced : t.cursor.Synced := by
    rw [ht]
    exact LineCursor.synced_advance h
  have hahead : t.cursor.ahead = s.cursor.ahead := by
    rw [ht]
    rfl
  rw [hahead, hb]
  have hstays : ∀ line ∈ body, (line.meaning ctx.labels).staysInStage = true := by
    intro line hl
    rw [← hb] at hl
    rw [← continuesStage_eq]
    exact List.mem_takeWhile_imp hl
  refine (readBody_alike _ hsynced (hahead.trans ha) hstays).andThen_left ?_
  rintro u elements p _ ⟨rfl, hu⟩
  refine .done ⟨?_, hu⟩
  rw [view_addStage]
  simp [extend]

theorem view_setField (inStage : Bool) {field : Field} {label text : Capture} :
    (s.setField ctx line.contentRange field label text).view false []
      = (s.view inStage []).setField ctx line field label text := by
  simp only [setField, Pass.setField]
  rw [← view_diagnose, ← apply_ite (view inStage []), ← view_spell, ← apply_ite (view inStage [])]
  generalize (if field.isProse then _ else _ : Session) = u
  cases field <;> rfl

/-- What the reading of a line leaves, and of the body after it: the lines `rest` are ahead. -/
def ReadLine (ctx : ParseContext) (rest : List SourceLine) (t : Session) (_ : Unit) (q : Pass)
    (_ : Unit) : Prop :=
  Between ctx t q ∧ t.cursor.ahead = rest

/-- A line is read as the pass over the line and a body that follows it. -/
def ReadsAs (ctx : ParseContext) (s : Session) (line : SourceLine) (o : Step Unit) (p : Pass) : Prop :=
  ∃ body rest, s.cursor.ahead = body ++ rest ∧
    Alike (ReadLine ctx rest) SameTrace o (p.run ctx (line :: body))

/-- A line that leaves the flag off has no body. -/
theorem readsAs_of_step {t : Session} {p : Pass} (h : s.cursor.Took line)
    (hp : p.step ctx line = .done (t.view false []) ()) (ht : t.cursor = s.cursor) :
    ReadsAs ctx s line (.done (t.advance line) ()) p := by
  refine ⟨[], s.cursor.ahead, rfl, ?_⟩
  rw [Pass.run, hp, Outcome.andThen_done]
  refine .done ⟨⟨rfl, ?_, fun hin => by cases hin⟩, ?_⟩
  · rw [cursor_advance, ht]
    exact LineCursor.synced_advance h
  · rw [cursor_advance, ht]
    rfl

theorem readsAs_readStage {inStage : Bool} {name : Capture} {id : Option Capture}
    (h : s.cursor.Took line) (hm : line.meaning ctx.labels = .header name id)
    (hf : stageHeader? line form = some (name, id)) :
    ReadsAs ctx s line ((s.traceLine line).readStage ctx line form) (s.view inStage []) := by
  have hcut := (List.takeWhile_append_dropWhile (p := continuesStage ctx) (l := s.cursor.ahead)).symm
  refine ⟨_, _, hcut, ?_⟩
  have hstep : (s.view inStage []).step ctx line
      = ((s.traceLine line).view inStage []).openStage ctx line name id := by
    rw [Pass.step, hm]
    rfl
  rw [Pass.run, hstep]
  refine (readStage_alike (s := s.traceLine line) h hf hcut rfl).mono ?_
  rintro t _ q _ ⟨rfl, hsynced, hahead⟩
  refine ⟨⟨rfl, hsynced, ?_⟩, hahead⟩
  intro _ next hnext
  rw [hahead] at hnext
  rw [← continuesStage_eq]
  have hhead := List.head?_dropWhile_not (continuesStage ctx) s.cursor.ahead
  rw [Option.mem_def.1 hnext] at hhead
  exact hhead

/-- The reading of one line outside a stage is a pass over that line, and over the body that follows
it where the line is a header. -/
theorem readLine_readsAs {inStage : Bool} (h : s.cursor.Took line)
    (he : inStage = true → (line.meaning ctx.labels).staysInStage = false) :
    ReadsAs ctx s line (s.readLine ctx line) (s.view inStage []) := by
  have off (hm : (line.meaning ctx.labels).staysInStage = true) : inStage = false := by
    cases inStage with
    | false => rfl
    | true => rw [he rfl] at hm; cases hm
  unfold readLine
  by_cases hb : line.isBlank = true
  · have hm : line.meaning ctx.labels = .blank := meaning_of_isBlank hb
    rw [if_pos hb, off (by rw [hm]; rfl)]
    exact readsAs_of_step h (by rw [Pass.step, hm]) rfl
  rw [if_neg hb]
  dsimp only
  rw [LineCursor.currentRange_of_took h]
  cases hc : ctx.classify? line with
  | none =>
    have hm := meaning_of_unclassified hb hc
    exact readsAs_of_step h (by rw [Pass.step, hm]; rfl) rfl
  | some form =>
    have hm := meaning_of_classify? hb hc
    cases form with
    | comment text =>
      rw [off (by rw [hm]; rfl)]
      exact readsAs_of_step h (by rw [Pass.step, hm]; rfl) rfl
    | dialogue speaker text id =>
      rw [off (by rw [hm]; rfl)]
      exact readsAs_of_step h (by rw [Pass.step, hm]; rfl) rfl
    | narration text id =>
      rw [off (by rw [hm]; rfl)]
      exact readsAs_of_step h (by rw [Pass.step, hm]; rfl) rfl
    | stage label name id =>
      have hf : stageHeader? line (.stage label name id) = some (name, id) := rfl
      exact readsAs_readStage h hm hf
    | label label text =>
      simp only [LineMeaning.ofForm] at hm
      simp only [LineForm.isComment, Field.ofForm?, LineForm.isStage]
      cases hfield : Field.ofLabel? (lowercase label.value) with
      | some field =>
        rw [hfield] at hm
        refine readsAs_of_step h ?_ (cursor_setField ..)
        rw [Pass.step, hm, view_setField inStage]
        rfl
      | none =>
        rw [hfield] at hm
        by_cases hk : lowercase label.value = LineForm.stageKey
        · obtain ⟨name, id, hs⟩ :=
            LineForm.stageHeader?_of_label (LineForm.configuredLabel?_of_classify? hc) hk
          rw [hs] at hm
          simp only [hk] at hm ⊢
          refine readsAs_readStage h hm ?_
          simp [stageHeader?, hs]
        · simp only [if_neg hk, beq_iff_eq] at hm ⊢
          exact readsAs_of_step h (by rw [Pass.step, hm]; rfl) rfl

/-- The next line is read as a pass over it and the body after it. -/
theorem readsAs_of_take {p : Pass} {cursor : LineCursor} (h : Between ctx s p)
    (ha : s.cursor.ahead = line :: cursor.ahead)
    (hc : cursor = { s.cursor with ahead := cursor.ahead, current := some line }) :
    ReadsAs ctx { s with cursor := cursor } line ({ s with cursor := cursor }.readLine ctx line) p := by
  have htook : cursor.Took line := by
    rw [hc]
    exact LineCursor.took_take h.synced ha
  have hview : p = { s with cursor := cursor }.view p.inStage [] := h.view
  rw [hview]
  exact readLine_readsAs htook fun hin => h.ends hin line (by rw [ha]; rfl)

/-- The reading of the lines ahead is a pass over them. -/
theorem readLines_alike {p : Pass} (h : Between ctx s p) :
    Alike (fun t _ q _ => q = t.view q.inStage []) SameTrace (s.readLines ctx)
      (p.run ctx s.cursor.ahead) := by
  fun_induction readLines ctx s generalizing p with
  | case1 s cause htake => exact absurd htake (LineCursor.take_ne_error h.synced)
  | case2 s cursor htake =>
    obtain ⟨ha, rfl⟩ := LineCursor.eq_of_take_none h.synced htake
    rw [ha, finished, LineCursor.finished_of_synced h.synced ha]
    exact .done h.view
  | case3 s line cursor htake t e hread =>
    obtain ⟨ha, hc⟩ := LineCursor.eq_of_take_some h.synced htake
    obtain ⟨body, rest, hcut, hline⟩ := readsAs_of_take h ha hc
    rw [ha, hcut, ← List.cons_append, Pass.run_append]
    rw [hread] at hline
    generalize p.run ctx (line :: body) = q at hline ⊢
    cases hline with
    | failed e htrace => exact .failed e htrace
  | case4 s line cursor htake t u hread hlt ih =>
    obtain ⟨ha, hc⟩ := LineCursor.eq_of_take_some h.synced htake
    obtain ⟨body, rest, hcut, hline⟩ := readsAs_of_take h ha hc
    rw [ha, hcut, ← List.cons_append, Pass.run_append]
    rw [hread] at hline
    generalize p.run ctx (line :: body) = q at hline ⊢
    cases hline with
    | done hdone =>
      rw [Outcome.andThen_done, ← hdone.2]
      exact ih hdone.1

theorem between_ofText (ctx : ParseContext) (text : List Char) : Between ctx (ofText text) {} :=
  ⟨rfl, LineCursor.synced_ofText text, fun h => by cases h⟩

end Session

namespace Document

/-- A document is read as one pass over its lines. -/
theorem parseIn_eq_run (ctx : ParseContext) (text : List Char) :
    parseIn ctx text = Pass.result (Pass.run ctx {} (lines text)) := by
  have h := Session.readLines_alike (Session.between_ofText ctx text)
  have ha : (Session.ofText text).cursor.ahead = lines text := rfl
  rw [ha] at h
  unfold parseIn
  generalize (Session.ofText text).readLines ctx = o at h ⊢
  generalize Pass.run ctx {} (lines text) = q at h ⊢
  cases h with
  | done hview =>
    simp only [Pass.result]
    rw [hview]
    simp [Session.view]
  | failed e htrace =>
    simp only [Pass.result]
    rw [htrace]

theorem run_of_parse {text : String} {store : Store} {options : ParseOptions} {report : Report}
    (h : parse text store options = .ok report) :
    ∃ p, Pass.run (.ofStore store options) {} (lines text.toList) = .done p () ∧
      report = p.report := by
  rw [parse, parseIn_eq_run] at h
  cases hr : Pass.run (.ofStore store options) {} (lines text.toList) with
  | done p _ =>
    rw [hr] at h
    cases h
    exact ⟨p, rfl, rfl⟩
  | failed p e =>
    rw [hr] at h
    cases h

/-- What is known of a reading is known of its report. -/
theorem exists_of_parse_map {α : Type} {f : Report → α} {a : α} {text : String} {store : Store}
    {options : ParseOptions} (h : (parse text store options).map f = .ok a) :
    ∃ report, parse text store options = .ok report ∧ f report = a := by
  cases hr : parse text store options with
  | error e =>
    rw [hr] at h
    cases h
  | ok report =>
    rw [hr] at h
    exact ⟨report, rfl, Except.ok.inj h⟩

/-- The record and the diagnostics of a document are those of one pass over its lines, and wherever
the flag of the pass is on there is a stage that an element can be added to. -/
theorem parse_record_of_pass {text : String} {store : Store} {options : ParseOptions}
    {report : Report} (h : parse text store options = .ok report) :
    (∃ p, Pass.run (.ofStore store options) {} (lines text.toList) = .done p () ∧
      report.record = p.report.record ∧ report.diagnostics = p.report.diagnostics) ∧
    ∀ before after p, lines text.toList = before ++ after →
      Pass.run (.ofStore store options) {} before = .done p () →
      p.inStage = true → p.report.record.stages ≠ [] := by
  refine ⟨?_, ?_⟩
  · obtain ⟨p, hp, rfl⟩ := run_of_parse h
    exact ⟨p, hp, rfl, rfl⟩
  · intro before after p _ hp
    have hstart : Pass.HasStage {} := fun hin => by cases hin
    exact Pass.hasStage_run hstart hp

/-- A stage with an element in it, a name without text, and a line that means nothing. -/
def messyText : String := "// a\nStage: One #s1\nClue: hi #e1\nName: \n> x\n"

def messyDiagnostics : List Diagnostic :=
  [⟨"Quest name required!", ⟨33, 39⟩⟩, ⟨"Unfamiliar syntax: > x", ⟨40, 43⟩⟩]

theorem parse_messyText :
    (parse messyText {} {}).map (fun r => (r.record.comments, r.diagnostics))
      = .ok (["a"], messyDiagnostics) := by
  rw [parse, parseIn_eq_run]
  rfl

theorem parse_record_of_pass_messy :
    ∃ p, Pass.run (.ofStore {} {}) {} (lines messyText.toList) = .done p () ∧
      p.report.record.comments = ["a"] ∧ p.report.diagnostics = messyDiagnostics := by
  have hparse := parse_messyText
  cases hr : parse messyText {} {} with
  | error e =>
    rw [hr] at hparse
    cases hparse
  | ok report =>
    obtain ⟨⟨p, hp, hrecord, hdiagnostics⟩, -⟩ := parse_record_of_pass hr
    rw [hr] at hparse
    have hpair : (report.record.comments, report.diagnostics) = (["a"], messyDiagnostics) :=
      Except.ok.inj hparse
    rw [hrecord, hdiagnostics] at hpair
    exact ⟨p, hp, congrArg Prod.fst hpair, congrArg Prod.snd hpair⟩

end Document
end Comfort
