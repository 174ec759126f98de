import Comfort.Proofs.Ident
import Comfort.Proofs.Pass.Reading

/-!
Where a pass stops before the end.

A pass stops at a dialogue in an open stage when the speakers cannot be had, and at a line without
an id when there is no id left for it.  Nothing else stops it: `step_eq_failed`.  Whether a stage is
open is a matter of the lines alone, as `inStage_run` shows.
-/

namespace Comfort

variable {ctx : ParseContext} {line : SourceLine}

/-! ## Headers and dialogues -/

namespace ParseContext

/-- A stage begins with the line. -/
def opensStage (ctx : ParseContext) (line : SourceLine) : Bool :=
  (ctx.classify? line).any LineForm.isStage

def isDialogue (ctx : ParseContext) (line : SourceLine) : Bool :=
  (ctx.classify? line).any fun form => form.speaker?.isSome

end ParseContext

namespace LineMeaning

def isHeader : LineMeaning → Bool
  | header _ _ => true
  | _ => false

def isDialogue : LineMeaning → Bool
  | element (some _) _ _ => true
  | _ => false

end LineMeaning

theorem classify?_of_isBlank (hb : line.isBlank = true) : ctx.classify? line = none := by
  have hchars : line.span.trimStart.chars = [] :=
    Text.trimStart_of_blank (List.all_eq_true.1 hb)
  have hcomment : LineForm.comment? line.span = none := by
    rw [LineForm.comment?, hchars]
  have hheading : LineForm.heading? line.span = none := by
    rw [LineForm.heading?, Span.splitFirst?, hchars]
    rfl
  have hnarration : LineForm.narration? line.span = none := by
    rw [LineForm.narration?, hchars]
  simp [ParseContext.classify?, LineForm.classify?, hcomment, LineForm.configuredLabel?,
    LineForm.stageHeader?, LineForm.dialogue?, hheading, hnarration]

theorem isHeader_ofForm {form : LineForm} (h : ctx.classify? line = some form) :
    (LineMeaning.ofForm line form).isHeader = form.isStage := by
  cases form with
  | label label text =>
    simp only [LineMeaning.ofForm, LineForm.isStage]
    by_cases hk : lowercase label.value = LineForm.stageKey
    · -- The label is no field, and the line is read again as the header that it is.
      obtain ⟨name, id, hs⟩ :=
        LineForm.stageHeader?_of_label (LineForm.configuredLabel?_of_classify? h) hk
      rw [hs, hk]
      rfl
    · rw [if_neg hk, beq_eq_false_iff_ne.2 hk]
      split <;> rfl
  | _ => rfl

theorem isDialogue_ofForm (line : SourceLine) (form : LineForm) :
    (LineMeaning.ofForm line form).isDialogue = form.speaker?.isSome := by
  cases form with
  | label label text =>
    simp only [LineMeaning.ofForm, LineForm.speaker?]
    split
    · rfl
    · split
      · unfold LineMeaning.ofHeader
        split <;> rfl
      · rfl
  | _ => rfl

theorem opensStage_eq (ctx : ParseContext) (line : SourceLine) :
    ctx.opensStage line = (line.meaning ctx.labels).isHeader := by
  unfold ParseContext.opensStage
  by_cases hb : line.isBlank = true
  · rw [classify?_of_isBlank hb, meaning_of_isBlank hb]
    rfl
  · cases hc : ctx.classify? line with
    | none =>
      rw [meaning_of_unclassified hb hc]
      rfl
    | some form =>
      rw [meaning_of_classify? hb hc, isHeader_ofForm hc]
      rfl

theorem isDialogue_eq (ctx : ParseContext) (line : SourceLine) :
    ctx.isDialogue line = (line.meaning ctx.labels).isDialogue := by
  unfold ParseContext.isDialogue
  by_cases hb : line.isBlank = true
  · rw [classify?_of_isBlank hb, meaning_of_isBlank hb]
    rfl
  · cases hc : ctx.classify? line with
    | none =>
      rw [meaning_of_unclassified hb hc]
      rfl
    | some form =>
      rw [meaning_of_classify? hb hc, isDialogue_ofForm]
      rfl

/-! ## The open stage -/

/-- The lines end in the body of a stage: after a header there are only blank lines, comments,
dialogues and narrations. -/
def EndsInStage (ctx : ParseContext) (lines : List SourceLine) : Prop :=
  ∃ before header body, lines = before ++ header :: body ∧ ctx.opensStage header = true ∧
    ∀ line ∈ body, Session.continuesStage ctx line = true

theorem not_endsInStage_nil : ¬ EndsInStage ctx [] := by
  rintro ⟨before, header, body, h, -⟩
  have hne : before ++ header :: body ≠ [] := by simp
  exact hne h.symm

/-- A further line opens a stage, or goes on with the one that is open. -/
theorem endsInStage_append_singleton {lines : List SourceLine} :
    EndsInStage ctx (lines ++ [line]) ↔
      ctx.opensStage line = true ∨
        EndsInStage ctx lines ∧ Session.continuesStage ctx line = true := by
  constructor
  · rintro ⟨before, header, body, hlines, hheader, hbody⟩
    cases body using List.reverseRecOn with
    | nil =>
      have hlast : line = header := List.singleton_inj.1 (List.append_inj' hlines rfl).2
      rw [hlast]
      exact .inl hheader
    | append_singleton body last =>
      have hcut : lines ++ [line] = (before ++ header :: body) ++ [last] := by
        rw [hlines]
        simp
      obtain ⟨hfront, hlast⟩ := List.append_inj' hcut rfl
      cases List.singleton_inj.1 hlast
      refine .inr ⟨⟨before, header, body, hfront, hheader, fun l hl => ?_⟩, ?_⟩
      · exact hbody l (List.mem_append_left _ hl)
      · exact hbody line (List.mem_append_right _ (List.mem_singleton.2 rfl))
  · rintro (hheader | ⟨⟨before, header, body, rfl, hheader, hbody⟩, hline⟩)
    · exact ⟨lines, line, [], rfl, hheader, nofun⟩
    · refine ⟨before, header, body ++ [line], by simp, hheader, ?_⟩
      exact List.forall_mem_append.2 ⟨hbody, List.forall_mem_singleton.2 hline⟩

namespace Pass

variable {p q t : Pass} {e : ParseError}

theorem inStage_openStage {name : Capture} {id : Option Capture}
    (h : p.openStage ctx line name id = .done q ()) : q.inStage = true := by
  unfold openStage at h
  obtain ⟨t, a, -, h⟩ := Outcome.andThen_eq_done.1 h
  cases h
  rfl

/-- Looking up a speaker changes the report only. -/
theorem eq_of_speaker {c : Option Capture} {a : Option String × Bool}
    (h : p.speaker ctx c = .done q a) : ∃ report, q = { p with report := report } := by
  unfold speaker at h
  split at h
  · cases h
    exact ⟨_, rfl⟩
  · split at h
    · cases h
      exact ⟨_, rfl⟩
    · cases h
    · split at h <;> cases h <;> exact ⟨_, rfl⟩

theorem inStage_claim {id : Option Capture} {a : String} (h : p.claim line id = .done q a) :
    q.inStage = p.inStage := by
  unfold claim at h
  split at h
  · split at h <;> cases h <;> rfl
  · split at h <;> cases h
    rfl

theorem inStage_addElement {speaker : Option Capture} {text : Capture} {id : Option Capture}
    (h : p.addElement ctx line speaker text id = .done q ()) : q.inStage = p.inStage := by
  unfold addElement at h
  obtain ⟨t, a, ht, h⟩ := Outcome.andThen_eq_done.1 h
  obtain ⟨u, b, hu, h⟩ := Outcome.andThen_eq_done.1 h
  cases h
  obtain ⟨report, rfl⟩ := eq_of_speaker ht
  show u.inStage = p.inStage
  rw [inStage_claim hu]
  split <;> rfl

/-- The flag after a line, by what the line is. -/
theorem inStage_step (h : p.step ctx line = .done q ()) :
    q.inStage = (ctx.opensStage line || p.inStage && Session.continuesStage ctx line) := by
  rw [opensStage_eq, continuesStage_eq]
  unfold step at h
  cases hm : line.meaning ctx.labels with
  | blank =>
    rw [hm] at h
    cases h
    exact (Bool.and_true _).symm
  | comment text =>
    rw [hm] at h
    dsimp only at h
    split at h <;> cases h <;> exact (Bool.and_true _).symm
  | field field label text =>
    rw [hm] at h
    cases h
    exact (Bool.and_false _).symm
  | header name id =>
    rw [hm] at h
    exact inStage_openStage h
  | element speaker text id =>
    rw [hm] at h
    dsimp only at h
    split at h
    · next hin =>
      have hopen : q.inStage = p.inStage := inStage_addElement (p := p.traceLine line) h
      rw [hopen, hin]
      rfl
    · next hin =>
      cases h
      have hoff : p.inStage = false := by simpa using hin
      rw [hoff]
      rfl
  | other =>
    rw [hm] at h
    cases h
    exact (Bool.and_false _).symm

/-- A stage is open after a run when the lines end in the body of one. -/
theorem inStage_run {lines : List SourceLine} (hp : p.inStage = false)
    (h : p.run ctx lines = .done q ()) : q.inStage = true ↔ EndsInStage ctx lines := by
  -- The last line decides, so the lines are taken off from the right.
  induction lines using List.reverseRecOn generalizing q with
  | nil =>
    cases h
    rw [hp]
    exact ⟨nofun, fun hends => absurd hends not_endsInStage_nil⟩
  | append_singleton lines line ih =>
    rw [run_append] at h
    obtain ⟨t, _, ht, h⟩ := Outcome.andThen_eq_done.1 h
    obtain ⟨u, _, hu, h⟩ := Outcome.andThen_eq_done.1 h
    cases h
    rw [inStage_step hu, endsInStage_append_singleton, Bool.or_eq_true, Bool.and_eq_true, ih ht]

/-! ## What stops a step -/

/-- There are no speakers to look up, and not for want of a schema. -/
def NoSpeakers (ctx : ParseContext) (cause : SchemaError) : Prop :=
  ctx.speakers = .error cause ∧ ∀ id, cause ≠ .notFound id

/-- The line needs an id, and each one that could be derived for it is taken. -/
def NoId (ctx : ParseContext) (p : Pass) (line : SourceLine) : Prop :=
  (ctx.opensStage line = true ∨ p.inStage = true) ∧
    (line.meaning ctx.labels).lacksId = true ∧ Ident.Exhausted p.seen (Session.idSeed line)

theorem claim_eq_failed {id : Option Capture} :
    p.claim line id = .failed t e ↔
      id = none ∧ Ident.Exhausted p.seen (Session.idSeed line) ∧ t = p ∧
        e = .noFreeId line.index := by
  cases id with
  | some id =>
    simp only [claim]
    constructor
    · intro h
      split at h <;> cases h
    · rintro ⟨h, -⟩
      cases h
  | none =>
    rw [← Ident.fresh?_eq_none, claim]
    cases Ident.fresh? p.seen (Session.idSeed line) with
    | none =>
      constructor
      · intro h
        cases h
        exact ⟨rfl, rfl, rfl, rfl⟩
      · rintro ⟨-, -, rfl, rfl⟩
        rfl
    | some id =>
      constructor
      · intro h
        cases h
      · rintro ⟨-, h, -⟩
        cases h

theorem speaker_eq_failed {c : Option Capture} :
    p.speaker ctx c = .failed t e ↔
      c.isSome = true ∧ t = p ∧ ∃ cause, NoSpeakers ctx cause ∧ e = .schema cause := by
  cases c with
  | none =>
    constructor
    · intro h
      cases h
    · rintro ⟨h, -⟩
      cases h
  | some c =>
    simp only [speaker, NoSpeakers]
    cases ctx.speakers with
    | ok speakers =>
      constructor
      · intro h
        dsimp only at h
        split at h <;> cases h
      · rintro ⟨-, -, cause, ⟨h, -⟩, -⟩
        cases h
    | error cause =>
      cases cause with
      | notFound id =>
        constructor
        · intro h
          cases h
        · rintro ⟨-, -, cause, ⟨h, hne⟩, -⟩
          cases h
          exact absurd rfl (hne id)
      | _ =>
        constructor
        · intro h
          cases h
          exact ⟨rfl, rfl, _, ⟨rfl, nofun⟩, rfl⟩
        · rintro ⟨-, rfl, cause, ⟨h, -⟩, rfl⟩
          cases h
          rfl

/-- A step stops for one of two reasons, with the line as the last entry of the trace where there
are no speakers. -/
theorem step_eq_failed (h : p.step ctx line = .failed t e) :
    (p.inStage = true ∧ ctx.isDialogue line = true ∧
      t.trace = p.trace ++ [Session.lineTrace line] ∧
      ∃ cause, NoSpeakers ctx cause ∧ e = .schema cause) ∨
    (NoId ctx p line ∧ e = .noFreeId line.index) := by
  rw [isDialogue_eq]
  unfold NoId
  rw [opensStage_eq]
  unfold step at h
  cases hm : line.meaning ctx.labels with
  | blank =>
    rw [hm] at h
    cases h
  | comment text =>
    rw [hm] at h
    dsimp only at h
    split at h <;> cases h
  | field field label text =>
    rw [hm] at h
    cases h
  | other =>
    rw [hm] at h
    cases h
  | header name id =>
    rw [hm] at h
    rcases Outcome.andThen_eq_failed.1 h with hclaim | ⟨_, _, _, h⟩
    · obtain ⟨rfl, hexhausted, rfl, rfl⟩ := claim_eq_failed.1 hclaim
      refine .inr ⟨⟨.inl rfl, rfl, ?_⟩, rfl⟩
      split at hexhausted <;> exact hexhausted
    · cases h
  | element speaker text id =>
    rw [hm] at h
    dsimp only at h
    split at h
    · next hin =>
      rcases Outcome.andThen_eq_failed.1 h with hspeaker | ⟨u, a, hu, h⟩
      · obtain ⟨hsome, rfl, hcause⟩ := speaker_eq_failed.1 hspeaker
        obtain ⟨c, rfl⟩ := Option.isSome_iff_exists.1 hsome
        exact .inl ⟨hin, rfl, rfl, hcause⟩
      · obtain ⟨report, rfl⟩ := eq_of_speaker hu
        rcases Outcome.andThen_eq_failed.1 h with hclaim | ⟨_, _, _, h⟩
        · obtain ⟨rfl, hexhausted, rfl, rfl⟩ := claim_eq_failed.1 hclaim
          refine .inr ⟨⟨.inr hin, rfl, ?_⟩, rfl⟩
          split at hexhausted <;> exact hexhausted
        · cases h
    · cases h

/-- A dialogue in an open stage stops the pass when there are no speakers. -/
theorem step_of_noSpeakers {cause : SchemaError} (hc : NoSpeakers ctx cause)
    (hin : p.inStage = true) (hd : ctx.isDialogue line = true) :
    ∃ t, p.step ctx line = .failed t (.schema cause) := by
  rw [isDialogue_eq] at hd
  unfold step
  cases hm : line.meaning ctx.labels with
  | element speaker text id =>
    rw [hm] at hd
    cases speaker with
    | none => cases hd
    | some c =>
      have hspeaker : ((p.traceLine line).spell ctx text).speaker ctx (some c)
          = .failed ((p.traceLine line).spell ctx text) (.schema cause) :=
        speaker_eq_failed.2 ⟨rfl, rfl, cause, hc, rfl⟩
      refine ⟨(p.traceLine line).spell ctx text, ?_⟩
      dsimp only
      rw [if_pos hin, addElement, hspeaker]
      rfl
  | _ =>
    rw [hm] at hd
    cases hd

theorem claim_of_exhausted (h : Ident.Exhausted p.seen (Session.idSeed line)) :
    p.claim line none = .failed p (.noFreeId line.index) :=
  claim_eq_failed.2 ⟨rfl, h, rfl, rfl⟩

/-- A line that needs an id stops the pass when there is none left. -/
theorem step_of_noId (h : NoId ctx p line) : ∃ t e, p.step ctx line = .failed t e := by
  obtain ⟨hplace, hlacks, hexhausted⟩ := h
  rw [opensStage_eq] at hplace
  unfold step
  cases hm : line.meaning ctx.labels with
  | header name id =>
    rw [hm] at hlacks
    cases id with
    | some id => cases hlacks
    | none =>
      dsimp only [openStage]
      rw [claim_of_exhausted (by split <;> exact hexhausted)]
      exact ⟨_, _, rfl⟩
  | element speaker text id =>
    rw [hm] at hplace hlacks
    have hin : p.inStage = true := by
      rcases hplace with hheader | hin
      · cases hheader
      · exact hin
    cases id with
    | some id => cases hlacks
    | none =>
      dsimp only [addElement]
      rw [if_pos hin]
      cases hs : ((p.traceLine line).spell ctx text).speaker ctx speaker with
      | failed t e => exact ⟨t, e, rfl⟩
      | done q a =>
        obtain ⟨report, rfl⟩ := eq_of_speaker hs
        rw [Outcome.andThen_done, claim_of_exhausted (by split <;> exact hexhausted)]
        exact ⟨_, _, rfl⟩
  | _ =>
    rw [hm] at hlacks
    cases hlacks

/-! ## What stops a run -/

/-- A run fails at one line, and it is done with the lines before that one. -/
theorem run_eq_failed {lines : List SourceLine} :
    p.run ctx lines = .failed t e ↔
      ∃ before line after q, lines = before ++ line :: after ∧ p.run ctx before = .done q () ∧
        q.step ctx line = .failed t e := by
  constructor
  · intro h
    induction lines generalizing p with
    | nil => cases h
    | cons line rest ih =>
      rcases Outcome.andThen_eq_failed.1 h with hline | ⟨q, _, hline, h⟩
      · exact ⟨[], line, rest, p, rfl, rfl, hline⟩
      · obtain ⟨before, last, after, u, rfl, hbefore, hlast⟩ := ih h
        refine ⟨line :: before, last, after, u, rfl, ?_, hlast⟩
        exact Outcome.andThen_eq_done.2 ⟨q, (), hline, hbefore⟩
  · rintro ⟨before, line, after, q, rfl, hbefore, hline⟩
    rw [run_append, hbefore, Outcome.andThen_done]
    exact Outcome.andThen_eq_failed.2 (.inl hline)

end Pass
end Comfort
