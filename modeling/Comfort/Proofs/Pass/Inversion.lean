import Comfort.Proofs.Line.Marks
import Comfort.Proofs.Pass.Stops

/-!
What a line can do to a pass.

A line does one of three things.  It is no part of a stage, and then it neither takes an id nor adds
to the stages; it opens a stage; or it adds an element to the stage that is open.  `Effect` tells of
each of them what becomes of the ids and the stages, and which diagnostics, edits and completions are
added.  `effect_of_step` says that every line has one of these effects, so what holds along a run is
shown by cases on it.
-/

namespace Comfort

/-- The lines, each with whether a stage is open where it stands.  The flag says this of the first
of them. -/
def ParseContext.staged (ctx : ParseContext) : Bool → List SourceLine → List (SourceLine × Bool)
  | _, [] => []
  | inStage, line :: rest =>
    (line, inStage)
      :: staged ctx (ctx.opensStage line || inStage && Session.continuesStage ctx line) rest

namespace Pass

variable {ctx : ParseContext} {p q : Pass} {line : SourceLine} {r r' : Report}

/-- What is picked from the lines is picked from the first line, and then from the rest, with the
flag as the step leaves it. -/
theorem filterMap_staged_cons {α : Type} (pick : SourceLine × Bool → Option α)
    (rest : List SourceLine) (h : p.step ctx line = .done q ()) :
    (ctx.staged p.inStage (line :: rest)).filterMap pick
      = (pick (line, p.inStage)).toList ++ (ctx.staged q.inStage rest).filterMap pick := by
  rw [inStage_step h, ParseContext.staged, List.filterMap_cons]
  cases pick (line, p.inStage) <;> rfl

/-! ## What is added to a report -/

/-- What a part of a reading adds to a report, apart from hovers and words. -/
structure Notes where
  diagnostics : List Diagnostic := []
  edits : List Edit := []
  completions : List Completion := []

namespace Notes

def and (a b : Notes) : Notes :=
  { diagnostics := a.diagnostics ++ b.diagnostics
    edits := a.edits ++ b.edits
    completions := a.completions ++ b.completions }

/-- A diagnostic that is given on a condition. -/
def diagnosticIf (b : Prop) [Decidable b] (message : String) (range : TextRange) : Notes :=
  { diagnostics := if b then [⟨message, range⟩] else [] }

/-- A written id that is taken is reported, and an edit is proposed where no id is written. -/
def ofClaim (seen : List String) (line : SourceLine) : Option Capture → String → Notes
  | some c, _ => diagnosticIf (c.value ∈ seen) ("Duplicate id: " ++ c.value) c.range
  | none, id => { edits := [{ range := Session.idPlace line, newText := " #" ++ id }] }

theorem mem_diagnosticIf {b : Prop} [Decidable b] {message : String} {range : TextRange}
    {d : Diagnostic} :
    d ∈ (diagnosticIf b message range).diagnostics ↔ b ∧ d = ⟨message, range⟩ := by
  unfold diagnosticIf
  by_cases hb : b
  · rw [if_pos hb, List.mem_singleton, and_iff_right hb]
  · rw [if_neg hb]
    exact ⟨nofun, fun h => absurd h.1 hb⟩

theorem mem_ofClaim {seen : List String} {line : SourceLine} {written : Option Capture}
    {id : String} {d : Diagnostic} :
    d ∈ (ofClaim seen line written id).diagnostics ↔
      ∃ c, written = some c ∧ c.value ∈ seen ∧ d = ⟨"Duplicate id: " ++ c.value, c.range⟩ := by
  cases written with
  | none => exact ⟨nofun, fun ⟨_, hnone, _⟩ => nomatch hnone⟩
  | some c =>
    rw [ofClaim, mem_diagnosticIf]
    exact ⟨fun h => ⟨c, rfl, h⟩, fun ⟨_, hc, h⟩ => Option.some.inj hc ▸ h⟩

theorem completions_ofClaim (seen : List String) (line : SourceLine) (written : Option Capture)
    (id : String) : (ofClaim seen line written id).completions = [] := by
  cases written <;> rfl

/-- The diagnostic of a line that is no part of a stage. -/
def IsStray (line : SourceLine) (notes : Notes) : Prop :=
  notes = {} ∨ notes = { diagnostics := [⟨"Quest name required!", line.contentRange⟩] } ∨
    notes = { diagnostics := [⟨"Unfamiliar syntax: " ++ line.text, line.contentRange⟩] }

end Notes

structure Adds (r r' : Report) (notes : Notes) : Prop where
  diagnostics : r'.diagnostics = r.diagnostics ++ notes.diagnostics
  edits : r'.edits = r.edits ++ notes.edits
  completions : r'.completions = r.completions ++ notes.completions

theorem Adds.nothing (hd : r'.diagnostics = r.diagnostics) (he : r'.edits = r.edits)
    (hc : r'.completions = r.completions) : Adds r r' {} where
  diagnostics := by rw [hd, List.append_nil]
  edits := by rw [he, List.append_nil]
  completions := by rw [hc, List.append_nil]

theorem Adds.trans {r'' : Report} {a b : Notes} (h : Adds r r' a) (h' : Adds r' r'' b) :
    Adds r r'' (a.and b) where
  diagnostics := by rw [h'.diagnostics, h.diagnostics, List.append_assoc]; rfl
  edits := by rw [h'.edits, h.edits, List.append_assoc]; rfl
  completions := by rw [h'.completions, h.completions, List.append_assoc]; rfl

theorem Adds.spell {a : Notes} (h : Adds r r' a) (ctx : ParseContext) (c : Capture) :
    Adds r (r'.spell ctx c) a := by
  unfold Report.spell
  split
  · exact ⟨h.diagnostics, h.edits, h.completions⟩
  · exact h

theorem adds_refl (r : Report) : Adds r r {} :=
  .nothing rfl rfl rfl

/-- A diagnostic that is given on a condition changes nothing else. -/
theorem diagnoseIf_spec (p : Pass) (b : Prop) [Decidable b] (message : String)
    (range : TextRange) :
    ∃ t, (if b then p.diagnose message range else p) = t ∧
      Adds p.report t.report (.diagnosticIf b message range) ∧ t.seen = p.seen ∧
      t.report.record.stages = p.report.record.stages := by
  refine ⟨_, rfl, ?_, ?_, ?_⟩
  · unfold Notes.diagnosticIf
    split
    · exact ⟨rfl, (List.append_nil _).symm, (List.append_nil _).symm⟩
    · exact adds_refl p.report
  · split <;> rfl
  · split <;> rfl

/-! ## Ids and speakers -/

/-- Where no id is written, the one that is taken is a derived one that was free. -/
structure Takes (seen seen' : List String) (written : Option Capture) (id : String) : Prop where
  kept : ∀ c, written = some c → c.value = id
  derived : written = none → id ∉ seen ∧ ∃ seed, id = Ident.derive seed
  seen : ∀ a, a ∈ seen' ↔ a ∈ seen ∨ a = id

/-- Who is named by an element, whether that is known not to be an allowed speaker, and what is
noted about it. -/
inductive Speaks (ctx : ParseContext) :
    Option Capture → Option String → Bool → Notes → Prop where
  | nobody : Speaks ctx none none false {}
  | unchecked {c : Capture} {id : String} (h : ctx.speakers = .error (.notFound id)) :
      Speaks ctx (some c) (some (trimmed c.value)) false {}
  | found {c : Capture} {speakers : List Speaker} {speaker : Speaker}
      (h : ctx.speakers = .ok speakers)
      (hfind : speakers.find? (fun speaker => speaker.isNamed c.value) = some speaker) :
      Speaks ctx (some c) (some speaker.id) false
        { completions := [⟨c.range, Session.candidates speakers⟩] }
  | unknown {c : Capture} {speakers : List Speaker} (h : ctx.speakers = .ok speakers)
      (hfind : speakers.find? (fun speaker => speaker.isNamed c.value) = none) :
      Speaks ctx (some c) (some (trimmed c.value)) true
        { diagnostics := [⟨"Unknown speaker: " ++ c.value, c.range⟩]
          completions := [⟨c.range, Session.candidates speakers⟩] }

theorem takes_of_claim {written : Option Capture} {id : String}
    (h : p.claim line written = .done q id) :
    Takes p.seen q.seen written id ∧ Adds p.report q.report (.ofClaim p.seen line written id) := by
  cases written with
  | some c =>
    obtain ⟨t, ht, hadds, -, -⟩ := p.diagnoseIf_spec (c.value ∈ p.seen)
      ("Duplicate id: " ++ c.value) c.range
    have hkept (d : Capture) (hd : some c = some d) : d.value = c.value := by
      rw [Option.some.inj hd]
    rw [← ht] at hadds
    simp only [claim, List.contains_iff_mem] at h
    by_cases hseen : c.value ∈ p.seen
    · rw [if_pos hseen] at h hadds
      cases h
      refine ⟨⟨hkept, fun hnone => absurd hnone (Option.some_ne_none c), fun a => ?_⟩, hadds⟩
      show a ∈ p.seen ↔ a ∈ p.seen ∨ a = c.value
      refine ⟨.inl, fun ha => ha.elim id fun heq => ?_⟩
      rw [heq]
      exact hseen
    · rw [if_neg hseen] at h hadds
      cases h
      refine ⟨⟨hkept, fun hnone => absurd hnone (Option.some_ne_none c), fun a => ?_⟩, hadds⟩
      rw [List.mem_cons]
      exact or_comm
  | none =>
    simp only [claim] at h
    split at h
    · cases h
    · next fresh hfresh =>
      cases h
      have hkept (d : Capture) (hd : none = some d) : d.value = id :=
        absurd hd.symm (Option.some_ne_none d)
      refine ⟨⟨hkept, fun _ => Ident.fresh?_eq_some hfresh, fun a => ?_⟩, ?_⟩
      · rw [List.mem_cons]
        exact or_comm
      · exact ⟨(List.append_nil _).symm, rfl, (List.append_nil _).symm⟩

theorem speaks_of_speaker {c : Option Capture} {who : Option String} {isUnknown : Bool}
    (h : p.speaker ctx c = .done q (who, isUnknown)) :
    ∃ notes, Speaks ctx c who isUnknown notes ∧ Adds p.report q.report notes := by
  cases c with
  | none =>
    cases h
    exact ⟨{}, .nobody, adds_refl p.report⟩
  | some c =>
    simp only [speaker] at h
    cases hs : ctx.speakers with
    | error cause =>
      rw [hs] at h
      cases cause with
      | notFound id =>
        cases h
        exact ⟨{}, .unchecked hs, adds_refl p.report⟩
      | _ => cases h
    | ok speakers =>
      rw [hs] at h
      dsimp only at h
      cases hf : speakers.find? fun speaker => speaker.isNamed c.value with
      | some found =>
        rw [hf] at h
        cases h
        exact ⟨_, .found hs hf, (List.append_nil _).symm, (List.append_nil _).symm, rfl⟩
      | none =>
        rw [hf] at h
        cases h
        exact ⟨_, .unknown hs hf, rfl, (List.append_nil _).symm, rfl⟩

/-! ## Lines -/

/-- The element of a line, with what is known of its id and its speaker. -/
def elementOf (speaker : Option Capture) (text : Capture) (who : Option String) (isUnknown : Bool)
    (id : String) : StageElement :=
  { style := if speaker.isSome then .dialogue else .text
    id := some id
    speaker := who
    speakerUnknown := isUnknown
    text := trimmed text.value }

/-- A line that is no part of a stage. -/
structure Passes (p q : Pass) (line : SourceLine) : Prop where
  seen : q.seen = p.seen
  stages : q.report.record.stages = p.report.record.stages
  adds : ∃ notes, notes.IsStray line ∧ Adds p.report q.report notes

/-- A line that opens a stage. -/
structure Opens (p q : Pass) (line : SourceLine) (name : Capture) (written : Option Capture)
    (id : String) : Prop where
  takes : Takes p.seen q.seen written id
  stages : q.report.record.stages
    = p.report.record.stages ++ [{ id := some id, name := trimmed name.value, elements := [] }]
  adds : Adds p.report q.report
    ((Notes.diagnosticIf (trimmed name.value = "") "Stage name required!" line.contentRange).and
      (.ofClaim p.seen line written id))

/-- A line that adds an element to the open stage. -/
structure Plays (p q : Pass) (line : SourceLine) (written : Option Capture) (id : String)
    (element : StageElement) (spoken : Notes) : Prop where
  takes : Takes p.seen q.seen written id
  stages : q.report.record.stages = Record.withElement element p.report.record.stages
  adds : Adds p.report q.report
    ((spoken.and (.diagnosticIf (element.text = "") (Session.missingText element.style)
      line.contentRange)).and (.ofClaim p.seen line written id))

/-- What a line does to a pass. -/
inductive Effect (ctx : ParseContext) (p : Pass) (line : SourceLine) (q : Pass) : Prop where
  | passes (hm : (line.meaning ctx.labels).idSlot? p.inStage = none) (h : Passes p q line)
  | opens {name : Capture} {written : Option Capture} {id : String}
      (hm : line.meaning ctx.labels = .header name written) (h : Opens p q line name written id)
  | plays {speaker : Option Capture} {text : Capture} {written : Option Capture}
      {who : Option String} {isUnknown : Bool} {id : String} {spoken : Notes}
      (hin : p.inStage = true) (hm : line.meaning ctx.labels = .element speaker text written)
      (hs : Speaks ctx speaker who isUnknown spoken)
      (h : Plays p q line written id (elementOf speaker text who isUnknown id) spoken)

theorem Passes.of_traceLine (h : Passes (p.traceLine line) q line) : Passes p q line :=
  ⟨h.seen, h.stages, h.adds⟩

theorem passes_unfamiliar (p : Pass) (line : SourceLine) : Passes p (p.unfamiliar line) line where
  seen := rfl
  stages := rfl
  adds := ⟨_, .inr (.inr rfl), rfl, (List.append_nil _).symm, (List.append_nil _).symm⟩

theorem passes_setField (ctx : ParseContext) (p : Pass) (line : SourceLine) (field : Field)
    (label text : Capture) : Passes p (p.setField ctx line field label text) line := by
  obtain ⟨t, ht, hadds, hseen, hstages⟩ := p.diagnoseIf_spec
    (field = .name ∧ trimmed text.value = "") "Quest name required!" line.contentRange
  unfold setField
  dsimp only
  rw [ht]
  generalize hu : (if field.isProse then t.spell ctx text else t) = u
  have hspelled : Adds p.report u.report (.diagnosticIf (field = .name ∧ trimmed text.value = "")
      "Quest name required!" line.contentRange) ∧ u.seen = p.seen ∧
      u.report.record.stages = p.report.record.stages := by
    rw [← hu]
    split
    · exact ⟨hadds.spell ctx text, hseen, by rw [record_spell, hstages]⟩
    · exact ⟨hadds, hseen, hstages⟩
  obtain ⟨hadds, hseen, hstages⟩ := hspelled
  refine ⟨hseen, ?_, _, ?_, hadds.diagnostics, hadds.edits, hadds.completions⟩
  · rw [← hstages]
    cases field <;> rfl
  · unfold Notes.diagnosticIf
    split
    · exact .inr (.inl rfl)
    · exact .inl rfl

theorem opens_of_openStage {name : Capture} {written : Option Capture}
    (h : p.openStage ctx line name written = .done q ()) :
    ∃ id, Opens p q line name written id := by
  obtain ⟨t, ht, hadds, hseen, hstages⟩ := p.diagnoseIf_spec (trimmed name.value = "")
    "Stage name required!" line.contentRange
  unfold openStage at h
  dsimp only at h
  rw [ht] at h
  obtain ⟨u, id, hclaim, h⟩ := Outcome.andThen_eq_done.1 h
  cases h
  obtain ⟨htakes, hclaimed⟩ := takes_of_claim hclaim
  have hboth := (hadds.spell ctx name).trans hclaimed
  have hs : (t.spell ctx name).seen = p.seen := hseen
  rw [hs] at hboth
  rw [hs] at htakes
  refine ⟨id, htakes, ?_, ?_⟩
  · show u.report.record.stages ++ _ = _
    rw [record_claim hclaim, record_spell, hstages]
  · exact ⟨hboth.diagnostics, hboth.edits, hboth.completions⟩

theorem seen_speaker {c : Option Capture} {a : Option String × Bool}
    (h : p.speaker ctx c = .done q a) : q.seen = p.seen := by
  obtain ⟨report, rfl⟩ := eq_of_speaker h
  rfl

theorem plays_of_addElement {speaker : Option Capture} {text : Capture} {written : Option Capture}
    (h : p.addElement ctx line speaker text written = .done q ()) :
    ∃ who isUnknown id spoken, Speaks ctx speaker who isUnknown spoken ∧
      Plays p q line written id (elementOf speaker text who isUnknown id) spoken := by
  unfold addElement at h
  dsimp only at h
  obtain ⟨t, ⟨who, isUnknown⟩, hspeaker, h⟩ := Outcome.andThen_eq_done.1 h
  obtain ⟨u, id, hclaim, h⟩ := Outcome.andThen_eq_done.1 h
  cases h
  obtain ⟨spoken, hspeaks, hspoken⟩ := speaks_of_speaker hspeaker
  obtain ⟨v, hv, hadds, hseen, hstages⟩ := t.diagnoseIf_spec (trimmed text.value = "")
    (Session.missingText (if speaker.isSome then .dialogue else .text)) line.contentRange
  rw [hv] at hclaim
  obtain ⟨htakes, hclaimed⟩ := takes_of_claim hclaim
  have hs : v.seen = p.seen := by
    rw [hseen, seen_speaker hspeaker]
    rfl
  have hspelled : Adds p.report (p.spell ctx text).report {} := (adds_refl p.report).spell ctx text
  have hstart : Adds p.report t.report spoken := hspelled.trans hspoken
  have hboth := (hstart.trans hadds).trans hclaimed
  rw [hs] at hboth
  rw [hs] at htakes
  refine ⟨who, isUnknown, id, spoken, hspeaks, htakes, ?_, ?_⟩
  · show Record.withElement _ u.report.record.stages = _
    rw [record_claim hclaim, hstages, record_speaker hspeaker, record_spell]
    rfl
  · exact ⟨hboth.diagnostics, hboth.edits, hboth.completions⟩

/-- Every line has one of the effects. -/
theorem effect_of_step (h : p.step ctx line = .done q ()) : Effect ctx p line q := by
  unfold step at h
  cases hm : line.meaning ctx.labels with
  | blank =>
    rw [hm] at h
    cases h
    exact .passes (by rw [hm]; rfl) ⟨rfl, rfl, _, .inl rfl, adds_refl p.report⟩
  | comment text =>
    rw [hm] at h
    refine .passes (by rw [hm]; rfl) ?_
    dsimp only at h
    split at h <;> cases h <;> exact ⟨rfl, rfl, _, .inl rfl, .nothing rfl rfl rfl⟩
  | field field label text =>
    rw [hm] at h
    cases h
    exact .passes (by rw [hm]; rfl)
      (passes_setField ctx (p.traceLine line) line field label text).of_traceLine
  | header name written =>
    rw [hm] at h
    obtain ⟨id, hopens⟩ := opens_of_openStage h
    exact .opens hm ⟨hopens.takes, hopens.stages, hopens.adds⟩
  | element speaker text written =>
    rw [hm] at h
    dsimp only at h
    split at h
    · next hin =>
      obtain ⟨who, isUnknown, id, spoken, hspeaks, hplays⟩ := plays_of_addElement h
      exact .plays hin hm hspeaks ⟨hplays.takes, hplays.stages, hplays.adds⟩
    · next hin =>
      cases h
      refine .passes ?_ ?_
      · rw [hm]
        exact if_neg hin
      · exact (passes_unfamiliar (p.traceLine line) line).of_traceLine
  | other =>
    rw [hm] at h
    cases h
    exact .passes (by rw [hm]; rfl) (passes_unfamiliar (p.traceLine line) line).of_traceLine

end Pass
end Comfort
