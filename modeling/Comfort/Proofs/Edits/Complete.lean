import Comfort.Proofs.Document.Failure
import Comfort.Proofs.Document.Speakers
import Comfort.Proofs.Document.Splice
import Comfort.Proofs.Line.Speakable
import Comfort.Proofs.Pass.Growth

/-!
Accepting a completion.

A completion offers the labels of the allowed speakers in place of the one that is written in a
dialogue.  A label that can be written as a speaker leaves the line a dialogue of the same stage, and
the speaker is found.  A label is a display name that is free to be anything, though, and one that is
no speaker to the grammar is offered all the same.
-/

namespace Comfort

/-! ## What is offered -/

namespace Session

theorem mem_dropRepeats {a : String} (names : List String) : a ∈ dropRepeats names ↔ a ∈ names := by
  fun_induction dropRepeats names with
  | case1 => rfl
  | case2 b => rfl
  | case3 b rest ih =>
    rw [ih, List.mem_cons (a := a) (b := b) (l := b :: rest),
      or_iff_right_of_imp fun (h : a = b) => List.mem_cons.2 (.inl h)]
  | case4 b c rest hne ih => rw [List.mem_cons, ih, List.mem_cons (a := a) (b := b)]

theorem mem_candidates {name : String} {speakers : List Speaker} :
    name ∈ candidates speakers ↔ ∃ speaker ∈ speakers, speaker.label = name := by
  rw [candidates, mem_dropRepeats, List.mem_mergeSort, List.mem_map]

end Session

theorem Speaker.isNamed_label (speaker : Speaker) : speaker.isNamed speaker.label = true := by
  obtain ⟨id, name⟩ := speaker
  cases name with
  | none => simp [isNamed, label]
  | some name => simp [isNamed, label, sameIgnoringCase]

/-- A speaker is found under every name that is offered. -/
theorem Speaker.exists_find?_of_mem_candidates {name : String} {speakers : List Speaker}
    (h : name ∈ Session.candidates speakers) :
    ∃ speaker, speakers.find? (fun speaker => speaker.isNamed name) = some speaker := by
  obtain ⟨speaker, hspeaker, rfl⟩ := Session.mem_candidates.1 h
  rw [← Option.isSome_iff_exists, List.find?_isSome]
  exact ⟨speaker, hspeaker, speaker.isNamed_label⟩

theorem LineMeaning.SameText.of_dialogue {c text : Capture} {id : Option Capture} {m : LineMeaning}
    (h : SameText (.element (some c) text id) m) :
    ∃ c' text' id', m = .element (some c') text' id' ∧ c'.value = c.value ∧
      text'.value = text.value := by
  cases h with
  | @element _ speaker' _ text' _ id' hspeaker htext hid =>
    obtain ⟨c', rfl, hvalue⟩ := Option.map_eq_some_iff.1 hspeaker
    exact ⟨c', text', id', rfl, hvalue, htext⟩

/-! ## The line -/

/-- A message that complains neither of a speaker nor of a line that means nothing. -/
def Spares (message : String) : Prop :=
  ¬ "Unknown speaker: ".toList <+: message.toList ∧
    ¬ "Unfamiliar syntax: ".toList <+: message.toList

/-- The element is a dialogue of an allowed speaker who has this name, and there is no complaint in
its line. -/
structure SpokenBy (speakers : List Speaker) (name : String) (r : Report) (line : SourceLine)
    (element : StageElement) : Prop where
  style : element.style = .dialogue
  known : element.speakerUnknown = false
  speaker : ∃ speaker ∈ speakers, speaker.isNamed name = true ∧ element.speaker = some speaker.id
  spared : ∀ d ∈ r.diagnostics, line.contentRange.contains d.range = true → Spares d.message

theorem Record.mem_elements_of_next? {prior r : Record} {stage : Stage} {element : StageElement}
    (h : prior.next? r = some (stage, element)) : element ∈ r.elements := by
  simp only [next?, Option.bind_eq_bind, Option.bind_eq_some_iff, Option.pure_def,
    Option.some.injEq, Prod.mk.injEq] at h
  obtain ⟨_, -, _, hstage, _, helement, rfl, rfl⟩ := h
  exact List.mem_flatMap.2
    ⟨_, List.mem_of_getElem? hstage, List.mem_of_getElem? helement⟩

namespace Pass

variable {ctx : ParseContext} {p q : Pass} {line : SourceLine} {rest : List SourceLine}

/-- A run that begins with an element of the open stage. -/
theorem plays_of_run {speaker : Option Capture} {text : Capture} {written : Option Capture}
    (hin : p.inStage = true) (hm : line.meaning ctx.labels = .element speaker text written)
    (hd : p.run ctx (line :: rest) = .done q ()) :
    ∃ t who isUnknown id spoken, Speaks ctx speaker who isUnknown spoken ∧
      Plays p t line written id (elementOf speaker text who isUnknown id) spoken ∧
      t.run ctx rest = .done q () := by
  obtain ⟨t, _, ht, hd⟩ := Outcome.andThen_eq_done.1 hd
  cases effect_of_step ht with
  | passes hnone _ =>
    rw [hm, hin] at hnone
    cases hnone
  | opens hheader _ =>
    rw [hm] at hheader
    cases hheader
  | plays _ helement hs h =>
    rw [hm] at helement
    cases helement
    exact ⟨t, _, _, _, _, hs, h, hd⟩

theorem Speaks.eq_found {c : Capture} {who : Option String} {isUnknown : Bool} {notes : Notes}
    {speakers : List Speaker} {speaker : Speaker} (h : Speaks ctx (some c) who isUnknown notes)
    (hs : ctx.speakers = .ok speakers)
    (hfind : speakers.find? (fun speaker => speaker.isNamed c.value) = some speaker) :
    who = some speaker.id ∧ isUnknown = false ∧ notes.diagnostics = [] := by
  cases h with
  | unchecked hnone =>
    rw [hs] at hnone
    cases hnone
  | found hs' hfind' =>
    rw [hs] at hs'
    cases hs'
    rw [hfind] at hfind'
    cases hfind'
    exact ⟨rfl, rfl, rfl⟩
  | unknown hs' hfind' =>
    rw [hs] at hs'
    cases hs'
    rw [hfind] at hfind'
    cases hfind'

theorem spares_missingText (style : ElementStyle) : Spares (Session.missingText style) := by
  cases style <;> exact ⟨by decide, by decide⟩

theorem spares_duplicate (id : String) : Spares ("Duplicate id: " ++ id) := by
  constructor <;> intro ⟨rest, hrest⟩
  all_goals
    rw [String.toList_append] at hrest
    have hhead : some 'U' = some 'D' := congrArg List.head? hrest
    exact absurd hhead (by decide)

/-- In the line of a speaker who is found, nothing is said of the speaker. -/
theorem Plays.spares {written : Option Capture} {id : String} {element : StageElement}
    {spoken : Notes} (h : Plays p q line written id element spoken)
    (hspoken : spoken.diagnostics = []) {d : Diagnostic} (hd : d ∈ q.report.diagnostics) :
    d ∈ p.report.diagnostics ∨ Spares d.message := by
  rw [h.adds.diagnostics, Notes.and, Notes.and, hspoken, List.nil_append] at hd
  rcases List.mem_append.1 hd with hd | hd
  · exact .inl hd
  rcases List.mem_append.1 hd with hd | hd
  · rw [(Notes.mem_diagnosticIf.1 hd).2]
    exact .inr (spares_missingText _)
  · obtain ⟨c, -, -, rfl⟩ := Notes.mem_ofClaim.1 hd
    exact .inr (spares_duplicate _)

/-- Nothing else is said in that line, as what is said in the others stands there. -/
theorem Plays.spares_run {t : Pass} {written : Option Capture} {id : String}
    {element : StageElement} {spoken : Notes} (h : Plays p t line written id element spoken)
    (hspoken : spoken.diagnostics = []) {before : List SourceLine}
    (hp : run ctx {} before = .done p ()) (hd : t.run ctx rest = .done q ())
    (hapart : ∀ range, InALine (before ++ rest) range → line.contentRange.contains range = false)
    (d : Diagnostic) (hmem : d ∈ q.report.diagnostics)
    (hhere : line.contentRange.contains d.range = true) : Spares d.message := by
  have hother (hin : InALine (before ++ rest) d.range) : Spares d.message := by
    rw [hapart d.range hin] at hhere
    cases hhere
  obtain ⟨first, hfirst, hbefore⟩ := diagnostics_run hp
  obtain ⟨more, hmore, hafter⟩ := diagnostics_run hd
  rw [hmore] at hmem
  rcases List.mem_append.1 hmem with hmem | hmem
  · rcases h.spares hspoken hmem with hmem | hspares
    · rw [hfirst] at hmem
      obtain ⟨l, hl, hcontains⟩ := hbefore d hmem
      exact hother ⟨l, List.mem_append_left _ hl, hcontains⟩
    · exact hspares
  · obtain ⟨l, hl, hcontains⟩ := hafter d hmem
    exact hother ⟨l, List.mem_append_right _ hl, hcontains⟩

end Pass

namespace Document

open Store (gladeStore)

variable {text : String} {store : Store} {options : ParseOptions} {report : Report}

/-- With speakers at hand only a lack of ids stops a run. -/
theorem run_eq_done {ctx : ParseContext} {lines : List SourceLine} {speakers : List Speaker}
    (hs : ctx.speakers = .ok speakers) (hids : ¬ RunsOutOfIds ctx lines) :
    ∃ q, Pass.run ctx {} lines = .done q () := by
  cases hr : Pass.run ctx {} lines with
  | done q _ => exact ⟨q, rfl⟩
  | failed t e =>
    rcases cause_of_run_fails hr with ⟨_, _, _, hout⟩ | ⟨cause, _, _, hc, _⟩
    · exact absurd hout hids
    · have hnone := hc.1
      rw [hs] at hnone
      cases hnone

/-- A dialogue in a document, with another speaker in it. -/
theorem lines_renamed {labels : GlobalLabels} {before after : List SourceLine} {line : SourceLine}
    {c spokenText : Capture} {written : Option Capture} {name : String}
    (hlines : lines text.toList = before ++ line :: after)
    (hm : line.meaning labels = .element (some c) spokenText written)
    (hs : Speakable labels name) :
    ∃ line' after' c' spokenText' written',
      lines (c.range.replace name text).toList = before ++ line' :: after' ∧
      line'.meaning labels = .element (some c') spokenText' written' ∧ c'.value = name ∧
      spokenText'.value = spokenText.value ∧
      ∀ range, InALine (before ++ after') range → line'.contentRange.contains range = false := by
  have hline : line ∈ lines text.toList := by
    rw [hlines]
    exact List.mem_append_right _ List.mem_cons_self
  have hn : '\n' ∉ line.text.toList := newline_not_mem_of_mem_lines hline
  obtain ⟨front, back, hheaded, rfl, hrenamed⟩ := meaning_renamed hn hs hm
  obtain ⟨line', after', hlines', htext', -, -, hapart⟩ :=
    lines_replace hlines hheaded.text_eq (by simp) (hs.not_mem (by decide))
  obtain ⟨c', spokenText', written', hm', hvalue, htext⟩ := (hrenamed line' htext').of_dialogue
  exact ⟨line', after', c', spokenText', written', hlines', hm', hvalue, htext, hapart⟩

/-- `name` can be accepted for a completion of a report.  With it in place of what stands at the
range of the completion, the document is read to its end.  The line of the completion then has the
same element of the same stage, a dialogue of an allowed speaker with this name, and nothing in the
line complains of it. -/
def Accepts (text : String) (store : Store) (options : ParseOptions) (report : Report)
    (completion : Completion) (name : String) : Prop :=
  ∃ before line line' prior report' stage stage' element element' speakers,
    before ++ [line] <+: lines text.toList ∧
    line.contentRange.contains completion.range = true ∧
    before ++ [line'] <+: lines (completion.range.replace name text).toList ∧
    Pass.run (.ofStore store options) {} before = .done prior () ∧
    prior.report.record.next? report.record = some (stage, element) ∧
    parse (completion.range.replace name text) store options = .ok report' ∧
    prior.report.record.next? report'.record = some (stage', element') ∧
    stage'.id = stage.id ∧ stage'.name = stage.name ∧ element.style = .dialogue ∧
    element'.text = element.text ∧ Speaker.allowed store options.questSchemaId = .ok speakers ∧
    SpokenBy speakers name report' line' element'

/-- What is offered and can be written as a speaker can be accepted, unless the ids of the document
are then used up. -/
theorem accepts_of_parse (h : parse text store options = .ok report) {completion : Completion}
    (hc : completion ∈ report.completions) {name : String} (hname : name ∈ completion.candidates)
    (hs : Speakable options.labels name)
    (hids : ¬ RunsOutOfIds (.ofStore store options)
      (lines (completion.range.replace name text).toList)) :
    Accepts text store options report completion name := by
  obtain ⟨q, hq, rfl⟩ := run_of_parse h
  obtain ⟨before, line, after, p, hlines, hp, hin, c, spokenText, written, speakers, hm, hspeakers,
    rfl⟩ := (Pass.completion_run hq hc).resolve_left List.not_mem_nil
  have hempty : ({} : Pass).HasStage := nofun
  have hstage : p.report.record.stages ≠ [] := Pass.hasStage_run hempty hp hin
  obtain ⟨earlier, current, hprior⟩ := (List.eq_nil_or_concat _).resolve_left hstage
  rw [List.concat_eq_append] at hprior
  obtain ⟨line', after', c', spokenText', written', hlines', hm', hvalue, htext, hapart⟩ :=
    lines_renamed hlines hm hs
  -- Both runs come to the line with `p`, and go on from there.
  obtain ⟨r, hr⟩ := run_eq_done hspeakers hids
  have hparse : parse (c.range.replace name text) store options = .ok r.report := by
    rw [parse, parseIn_eq_run, hr]
    rfl
  rw [hlines, Pass.run_append, hp, Outcome.andThen_done] at hq
  rw [hlines', Pass.run_append, hp, Outcome.andThen_done] at hr
  obtain ⟨t, who, isUnknown, id, spoken, -, hplays, hrest⟩ := Pass.plays_of_run hin hm hq
  obtain ⟨t', who', isUnknown', id', spoken', hspeaks, hplays', hrest'⟩ :=
    Pass.plays_of_run hin hm' hr
  obtain ⟨speaker, hfind⟩ := Speaker.exists_find?_of_mem_candidates hname
  rw [← hvalue] at hfind
  obtain ⟨rfl, rfl, hnone⟩ := hspeaks.eq_found hspeakers hfind
  obtain ⟨stage, hnext, hid, hstageName⟩ :=
    Record.next?_of_grown hprior (by rw [← hplays.stages]; exact Pass.grown_run hrest)
  obtain ⟨stage', hnext', hid', hstageName'⟩ :=
    Record.next?_of_grown hprior (by rw [← hplays'.stages]; exact Pass.grown_run hrest')
  refine ⟨before, line, line', p, r.report, stage, stage', _, _, speakers, ?_, ?_, ?_, hp, hnext,
    hparse, hnext', hid'.trans hid.symm, hstageName'.trans hstageName.symm, rfl, ?_, hspeakers, ?_⟩
  · exact ⟨after, by rw [hlines, List.append_assoc]; rfl⟩
  · have hcaptures := SourceLine.showsAll_meaning (ParseContext.ofStore store options).labels line
    rw [hm] at hcaptures
    exact (hcaptures c List.mem_cons_self).contains_range
  · exact ⟨after', by rw [hlines', List.append_assoc]; rfl⟩
  · show trimmed spokenText'.value = trimmed spokenText.value
    rw [htext]
  · refine ⟨rfl, rfl, ⟨speaker, List.mem_of_find?_eq_some hfind, ?_, rfl⟩, fun d hd hhere => ?_⟩
    · rw [← hvalue]
      have hnamed := List.find?_some hfind
      exact hnamed
    · exact hplays'.spares_run hnone hp hrest' hapart d hd hhere

/-- What is offered are the labels of the allowed speakers. -/
theorem candidates_of_parse (h : parse text store options = .ok report) {completion : Completion}
    (hc : completion ∈ report.completions) :
    ∃ speakers, Speaker.allowed store options.questSchemaId = .ok speakers ∧
      completion.candidates = Session.candidates speakers := by
  obtain ⟨q, hq, rfl⟩ := run_of_parse h
  obtain ⟨_, _, _, _, -, -, -, _, _, _, speakers, -, hspeakers, rfl⟩ :=
    (Pass.completion_run hq hc).resolve_left List.not_mem_nil
  exact ⟨speakers, hspeakers, rfl⟩

/-- A dialogue of nobody that is known. -/
def burrowText : String := "Stage: One #s1\nNobody: hi #e1\n"

def burrowRange : TextRange := ⟨15, 21⟩

theorem parse_burrowText :
    (parse burrowText gladeStore {}).map (fun r => r.completions.map Completion.range)
      = .ok [burrowRange] := by
  rw [parse, parseIn_eq_run]
  decide +kernel

theorem allowed_gladeStore :
    Speaker.allowed gladeStore Schema.questId
      = .ok [⟨"npc_moss", some "Dr. Moss"⟩, ⟨"npc_nora", some "Nora"⟩] := by
  decide +kernel

/-- Both display names are offered for the dialogue. -/
theorem exists_completion_burrow :
    ∃ report completion, parse burrowText gladeStore {} = .ok report ∧
      completion ∈ report.completions ∧ completion.range = burrowRange ∧
      "Dr. Moss" ∈ completion.candidates ∧ "Nora" ∈ completion.candidates := by
  obtain ⟨report, hr, hranges⟩ := exists_of_parse_map parse_burrowText
  have hmem : burrowRange ∈ report.completions.map Completion.range := by
    rw [hranges]
    exact List.mem_singleton.2 rfl
  obtain ⟨completion, hc, hrange⟩ := List.mem_map.1 hmem
  obtain ⟨speakers, hspeakers, hcandidates⟩ := candidates_of_parse hr hc
  have hall := allowed_gladeStore
  rw [hspeakers] at hall
  cases hall
  refine ⟨report, completion, hr, hc, hrange, ?_, ?_⟩
  · rw [hcandidates]
    exact Session.mem_candidates.2 ⟨_, List.mem_cons_self, rfl⟩
  · rw [hcandidates]
    exact Session.mem_candidates.2 ⟨_, List.mem_cons_of_mem _ List.mem_cons_self, rfl⟩

theorem parse_burrowText_nora :
    (parse (burrowRange.replace "Nora" burrowText) gladeStore {}).map Report.diagnostics
      = .ok [] := by
  rw [parse, parseIn_eq_run]
  decide +kernel

theorem accepts_of_parse_burrow :
    ∃ report completion, parse burrowText gladeStore {} = .ok report ∧
      completion ∈ report.completions ∧ completion.range = burrowRange ∧
      "Nora" ∈ completion.candidates ∧
      Accepts burrowText gladeStore {} report completion "Nora" := by
  obtain ⟨report, completion, hr, hc, hrange, -, hnora⟩ := exists_completion_burrow
  refine ⟨report, completion, hr, hc, hrange, hnora,
    accepts_of_parse hr hc hnora (by decide) fun hout => ?_⟩
  obtain ⟨t, e, hfails⟩ := run_fails_of_runsOutOfIds hout
  have hparse := parse_burrowText_nora
  rw [← hrange, parse, parseIn_eq_run, hfails] at hparse
  cases hparse

theorem parse_burrowText_moss :
    (parse (burrowRange.replace "Dr. Moss" burrowText) gladeStore {}).map
        (fun r => r.record.elements)
      = .ok [] := by
  rw [parse, parseIn_eq_run]
  decide +kernel

/-- A display name with a full stop is offered too, but the stage ends where it is accepted. -/
theorem not_accepts_moss :
    ¬ ∀ (text : String) (store : Store) (options : ParseOptions) (report : Report)
      (completion : Completion) (name : String), parse text store options = .ok report →
      completion ∈ report.completions → name ∈ completion.candidates →
      Accepts text store options report completion name := by
  intro haccepts
  obtain ⟨report, completion, hr, hc, hrange, hmoss, -⟩ := exists_completion_burrow
  obtain ⟨_, _, _, prior, report', _, stage', _, element', _, -, -, -, -, -, hparse, hnext, -⟩ :=
    haccepts _ _ _ _ _ _ hr hc hmoss
  have hnone := parse_burrowText_moss
  rw [← hrange, hparse] at hnone
  have hempty : report'.record.elements = [] := Except.ok.inj hnone
  have helement : element' ∈ report'.record.elements := Record.mem_elements_of_next? hnext
  rw [hempty] at helement
  cases helement

end Document
end Comfort
