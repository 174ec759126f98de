import Comfort.Proofs.Document.Ids
import Comfort.Proofs.Document.Splice
import Comfort.Proofs.Line.Shift
import Comfort.Proofs.Mote.Allowed

/-!
When the reading of a document fails.

What is wrong with a document is reported and never stops its reading.  The reading stops only for
the sake of what is outside of it: there is a quest schema whose speakers cannot be had, and a
dialogue in a stage asks for them.  The reading has no result either when all ids are used up.
`parse_fails_iff` says that there is nothing else, and what the failure then is.

A document does use them up when it has more headers and elements without an id than there are ids
of six digits: `runsOutOfIds_of_capacity_lt`.  Then it has no reading whether something asks for
speakers or not: `not_fails_iff_asksInVain`.
-/

namespace Comfort

/-! ## Speakers that cannot be had -/

/-- Speakers that cannot be had are those of a schema that is there. -/
theorem noSpeakers_ofStore {store : Store} {options : ParseOptions} {cause : SchemaError} :
    Pass.NoSpeakers (.ofStore store options) cause ↔
      (store.schema? options.questSchemaId).isSome = true ∧
        Speaker.allowed store options.questSchemaId = .error cause := by
  have hspeakers : (ParseContext.ofStore store options).speakers
      = Speaker.allowed store options.questSchemaId := rfl
  rw [Pass.NoSpeakers, hspeakers]
  cases hs : store.schema? options.questSchemaId with
  | none =>
    rw [Speaker.allowed_of_no_schema hs]
    constructor
    · rintro ⟨heq, hne⟩
      cases heq
      exact absurd rfl (hne _)
    · rintro ⟨h, -⟩
      cases h
  | some schema =>
    refine ⟨fun h => ⟨rfl, h.1⟩, fun h => ⟨h.2, ?_⟩⟩
    rintro id rfl
    exact Speaker.allowed_ne_notFound hs id h.2

/-! ## Headers without an id -/

theorem LineMeaning.header_of_lacksId {m : LineMeaning} (hm : m.isHeader = true)
    (hlacks : m.lacksId = true) : ∃ name, m = .header name none := by
  cases m with
  | header name id =>
    cases id with
    | none => exact ⟨name, rfl⟩
    | some id => cases hlacks
  | _ => cases hm

theorem LineMeaning.SameText.of_header {name : Capture} {m : LineMeaning}
    (h : SameText (.header name none) m) : ∃ name', m = .header name' none := by
  cases h with
  | @header _ name' _ id' hname hid =>
    cases Option.map_eq_none_iff.1 hid
    exact ⟨name', rfl⟩

theorem LineMeaning.SameText.isDialogue_eq {m m' : LineMeaning} (h : SameText m m') :
    m'.isDialogue = m.isDialogue := by
  cases h with
  | @element speaker speaker' _ _ _ _ hspeaker =>
    cases speaker <;> cases speaker' <;> first | rfl | cases hspeaker
  | _ => rfl

namespace Document

variable {ctx : ParseContext} {lines before : List SourceLine} {line : SourceLine}

/-- `line` is a dialogue in the body of a stage, and `before` are the lines before it. -/
def StageDialogue (ctx : ParseContext) (lines before : List SourceLine) (line : SourceLine) :
    Prop :=
  before ++ [line] <+: lines ∧ EndsInStage ctx before ∧ ctx.isDialogue line = true

/-- The pass comes to a line that needs an id when each one that could be derived for it is taken.
The search for an id has no end then. -/
def RunsOutOfIds (ctx : ParseContext) (lines : List SourceLine) : Prop :=
  ∃ before line p, before ++ [line] <+: lines ∧ Pass.run ctx {} before = .done p () ∧
    Pass.NoId ctx p line

/-! ## Runs that fail -/

theorem run_fails_of_step {p : Pass} (hcut : before ++ [line] <+: lines)
    (hp : Pass.run ctx {} before = .done p ()) {t : Pass} {e : ParseError}
    (hline : p.step ctx line = .failed t e) : Pass.run ctx {} lines = .failed t e := by
  obtain ⟨after, rfl⟩ := hcut
  refine Pass.run_eq_failed.2 ⟨before, line, after, p, ?_, hp, hline⟩
  rw [List.append_assoc]
  rfl

theorem run_fails_of_prefix (hcut : before <+: lines) {t : Pass} {e : ParseError}
    (h : Pass.run ctx {} before = .failed t e) : Pass.run ctx {} lines = .failed t e := by
  obtain ⟨after, rfl⟩ := hcut
  rw [Pass.run_append, h]
  rfl

theorem run_fails_of_runsOutOfIds (h : RunsOutOfIds ctx lines) :
    ∃ t e, Pass.run ctx {} lines = .failed t e := by
  obtain ⟨before, line, p, hcut, hp, hno⟩ := h
  obtain ⟨t, e, hline⟩ := Pass.step_of_noId hno
  exact ⟨t, e, run_fails_of_step hcut hp hline⟩

/-- The lines up to a dialogue in a stage are not read to their end when there are no speakers. -/
theorem run_fails_of_stageDialogue {cause : SchemaError} (hc : Pass.NoSpeakers ctx cause)
    (h : StageDialogue ctx lines before line) :
    ∃ t e, Pass.run ctx {} lines = .failed t e := by
  obtain ⟨hcut, hends, hdialogue⟩ := h
  cases hrun : Pass.run ctx {} before with
  | failed t e =>
    have hbefore : before <+: lines := (List.prefix_append before [line]).trans hcut
    exact ⟨t, e, run_fails_of_prefix hbefore hrun⟩
  | done p u =>
    have hin : p.inStage = true := (Pass.inStage_run rfl hrun).2 hends
    obtain ⟨t, hline⟩ := Pass.step_of_noSpeakers hc hin hdialogue
    exact ⟨t, _, run_fails_of_step hcut hrun hline⟩

/-- Why a run fails. -/
theorem cause_of_run_fails {t : Pass} {e : ParseError} (h : Pass.run ctx {} lines = .failed t e) :
    (∃ line ∈ lines, e = .noFreeId line.index ∧ RunsOutOfIds ctx lines) ∨
    ∃ cause before line, Pass.NoSpeakers ctx cause ∧ e = .schema cause ∧
      StageDialogue ctx lines before line ∧ (∀ b l, ¬ StageDialogue ctx before b l) ∧
      t.trace.getLast? = some (Session.lineTrace line) := by
  obtain ⟨before, line, after, p, rfl, hp, hline⟩ := Pass.run_eq_failed.1 h
  have hcut : before ++ [line] <+: before ++ line :: after :=
    ⟨after, by rw [List.append_assoc]; rfl⟩
  rcases Pass.step_eq_failed hline with ⟨hin, hdialogue, htrace, cause, hc, rfl⟩ | ⟨hno, rfl⟩
  · refine .inr ⟨cause, before, line, hc, rfl, ⟨hcut, ?_, hdialogue⟩, ?_, ?_⟩
    · exact (Pass.inStage_run rfl hp).1 hin
    · -- An earlier dialogue in a stage would have stopped the run before.
      intro b l hearlier
      obtain ⟨u, f, hfails⟩ := run_fails_of_stageDialogue hc hearlier
      rw [hp] at hfails
      cases hfails
    · rw [htrace, List.getLast?_append_of_ne_nil _ (by simp)]
      rfl
  · refine .inl ⟨line, by simp, rfl, before, line, p, hcut, hp, hno⟩

/-! ## Documents that use all ids up -/

theorem RunsOutOfIds.append (h : RunsOutOfIds ctx lines) (more : List SourceLine) :
    RunsOutOfIds ctx (lines ++ more) := by
  obtain ⟨before, line, p, hcut, hp, hno⟩ := h
  exact ⟨before, line, p, hcut.trans (List.prefix_append lines more), hp, hno⟩

/-- Lines that need more ids than there are run out of them, unless they stop before for want of
speakers. -/
theorem runsOutOfIds_of_capacity_lt (hmany : Ident.capacity < idsNeeded ctx false lines)
    (hspeakers : ∀ before line, StageDialogue ctx lines before line →
      ∀ cause, ¬ Pass.NoSpeakers ctx cause) :
    RunsOutOfIds ctx lines ∧
      ∃ t, ∃ line ∈ lines, Pass.run ctx {} lines = .failed t (.noFreeId line.index) := by
  cases hrun : Pass.run ctx {} lines with
  | done p u =>
    have hbound := Pass.idsNeeded_le_of_run hrun
    omega
  | failed t e =>
    rcases cause_of_run_fails hrun with
      ⟨line, hl, rfl, hids⟩ | ⟨cause, before, line, hc, -, hline, -⟩
    · exact ⟨hids, t, line, hl, rfl⟩
    · exact absurd hc (hspeakers before line hline cause)

/-- The raw line of a stage without an id. -/
def bareHeader : List Char :=
  "Stage: x".toList ++ ['\n']

/-- The lines of `n` stages without an id. -/
def bareLines (n : Nat) : List SourceLine :=
  locate 0 0 (List.replicate n bareHeader)

def closingDialogue : List Char :=
  "Bob: hi #z".toList ++ ['\n']

/-- A dialogue in the last one of `n` stages without an id. -/
def crowdedText (n : Nat) : String :=
  String.ofList (List.replicate n bareHeader ++ [closingDialogue]).flatten

theorem lines_crowdedText (n : Nat) :
    ∃ index start, Document.lines (crowdedText n).toList
      = bareLines n ++ [lineAt index start closingDialogue] := by
  have hcut : Cut (List.replicate n bareHeader ++ [closingDialogue]) := by
    induction n with
    | zero => exact .cons (by decide) .nil
    | succ n ih => exact .cons (by decide) ih
  rw [Document.lines, crowdedText, String.toList_ofList, rawLines_flatten hcut, locate_append]
  exact ⟨_, _, rfl⟩

theorem length_bareLines (n : Nat) : (bareLines n).length = n := by
  rw [bareLines, length_locate, List.length_replicate]

theorem header_of_mem_bareLines {n : Nat} (h : line ∈ bareLines n) :
    ∃ name, line.meaning .default = .header name none := by
  obtain ⟨before, after, hlines⟩ := List.append_of_mem h
  obtain ⟨a, raw, b, hraws, -, rfl⟩ := exists_raw_of_locate hlines
  have hraw : raw ∈ List.replicate n bareHeader := by
    rw [hraws]
    exact List.mem_append_right _ List.mem_cons_self
  rw [List.eq_of_mem_replicate hraw]
  -- The line has the text of the first one, whose meaning can be computed.
  have hfirst : ((lineAt 0 0 bareHeader).meaning .default).isHeader = true ∧
      ((lineAt 0 0 bareHeader).meaning .default).lacksId = true := by decide +kernel
  obtain ⟨name, hname⟩ := LineMeaning.header_of_lacksId hfirst.1 hfirst.2
  have hsame := SourceLine.meaning_sameText .default (show
    (lineAt (0 + a.length) (0 + Text.byteLength a.flatten) bareHeader).text
      = (lineAt 0 0 bareHeader).text from rfl)
  rw [hname] at hsame
  exact hsame.of_header

/-- A text with more such stages than there are ids runs out of them, whether there are speakers or
not. -/
theorem runsOutOfIds_crowdedText (hctx : ctx.labels = .default) {n : Nat}
    (hn : Ident.capacity < n) :
    RunsOutOfIds ctx (Document.lines (crowdedText n).toList) ∧
      ∃ t index, Pass.run ctx {} (Document.lines (crowdedText n).toList)
        = .failed t (.noFreeId index) := by
  have hheaders : ∀ line ∈ bareLines n, ∃ name, line.meaning ctx.labels = .header name none := by
    rw [hctx]
    exact fun line hl => header_of_mem_bareLines hl
  have hmany : Ident.capacity < idsNeeded ctx false (bareLines n) := by
    rw [idsNeeded_of_headers hheaders, length_bareLines]
    exact hn
  have hnone : ∀ before line, StageDialogue ctx (bareLines n) before line →
      ∀ cause, ¬ Pass.NoSpeakers ctx cause := by
    rintro before line ⟨hcut, -, hdialogue⟩
    obtain ⟨name, hm⟩ := hheaders line (hcut.subset (List.mem_append_right _ List.mem_cons_self))
    rw [isDialogue_eq, hm] at hdialogue
    cases hdialogue
  obtain ⟨hids, t, line, -, hrun⟩ := runsOutOfIds_of_capacity_lt hmany hnone
  obtain ⟨index, start, hlines⟩ := lines_crowdedText n
  rw [hlines]
  exact ⟨hids.append _, t, line.index, run_fails_of_prefix (List.prefix_append _ _) hrun⟩

theorem stageDialogue_crowdedText (hctx : ctx.labels = .default) {n : Nat} (hn : 0 < n) :
    ∃ before line, StageDialogue ctx (Document.lines (crowdedText n).toList) before line := by
  obtain ⟨index, start, hlines⟩ := lines_crowdedText n
  refine ⟨bareLines n, lineAt index start closingDialogue, ?_, ?_, ?_⟩
  · exact ⟨[], by rw [List.append_nil, hlines]⟩
  · have hne : bareLines n ≠ [] := by
      rw [ne_eq, ← List.length_eq_zero_iff, length_bareLines]
      omega
    obtain ⟨front, last, hsplit⟩ := (List.eq_nil_or_concat _).resolve_left hne
    rw [List.concat_eq_append] at hsplit
    have hlast : last ∈ bareLines n := by
      rw [hsplit]
      exact List.mem_append_right _ List.mem_cons_self
    obtain ⟨name, hm⟩ := header_of_mem_bareLines hlast
    rw [hsplit]
    refine endsInStage_append_singleton.2 (.inl ?_)
    rw [opensStage_eq, hctx, hm]
    rfl
  · have hfirst : ((lineAt 0 0 closingDialogue).meaning .default).isDialogue = true := by
      decide +kernel
    have hsame := SourceLine.meaning_sameText .default (show
      (lineAt index start closingDialogue).text = (lineAt 0 0 closingDialogue).text from rfl)
    rw [isDialogue_eq, hctx, hsame.isDialogue_eq]
    exact hfirst

/-! ## Readings that fail -/

theorem parse_eq_error {text : String} {store : Store} {options : ParseOptions}
    {failure : ParseFailure} :
    parse text store options = .error failure ↔
      ∃ t, Pass.run (.ofStore store options) {} (Document.lines text.toList)
        = .failed t failure.error ∧ failure.trace = t.trace := by
  rw [parse, parseIn_eq_run]
  cases Pass.run (.ofStore store options) {} (Document.lines text.toList) with
  | done p u =>
    constructor
    · intro h
      cases h
    · rintro ⟨t, h, -⟩
      cases h
  | failed t e =>
    constructor
    · intro h
      cases h
      exact ⟨t, rfl, rfl⟩
    · obtain ⟨error, trace⟩ := failure
      rintro ⟨u, h, rfl⟩
      cases h
      rfl

/-- A reading fails when a dialogue in a stage asks for speakers that a quest schema does not give,
and at no other document unless its ids are used up.  The failure is the fault of the schema, and
the trace ends with the first such dialogue. -/
theorem parse_fails_iff (text : String) (store : Store) (options : ParseOptions) :
    ((∃ failure, parse text store options = .error failure) ↔
      RunsOutOfIds (.ofStore store options) (Document.lines text.toList) ∨
      ((store.schema? options.questSchemaId).isSome = true ∧
        (∃ cause, Speaker.allowed store options.questSchemaId = .error cause) ∧
        ∃ before line,
          StageDialogue (.ofStore store options) (Document.lines text.toList) before line)) ∧
    ∀ failure, parse text store options = .error failure →
      (∀ cause, failure.error ≠ .cursorDesync cause) ∧
      (∀ index, failure.error ≠ .notAStageHeader index) ∧
      ((∃ line ∈ Document.lines text.toList, failure.error = .noFreeId line.index ∧
          RunsOutOfIds (.ofStore store options) (Document.lines text.toList)) ∨
        ∃ cause before line, (store.schema? options.questSchemaId).isSome = true ∧
          Speaker.allowed store options.questSchemaId = .error cause ∧
          failure.error = .schema cause ∧
          StageDialogue (.ofStore store options) (Document.lines text.toList) before line ∧
          (∀ b l, ¬ StageDialogue (.ofStore store options) before b l) ∧
          failure.trace.getLast? = some (Session.lineTrace line)) := by
  refine ⟨⟨?_, ?_⟩, ?_⟩
  · rintro ⟨failure, hfailure⟩
    obtain ⟨t, hrun, -⟩ := parse_eq_error.1 hfailure
    rcases cause_of_run_fails hrun with ⟨_, _, _, hids⟩ | ⟨cause, before, line, hc, -, hline, -⟩
    · exact .inl hids
    · obtain ⟨hschema, hallowed⟩ := noSpeakers_ofStore.1 hc
      exact .inr ⟨hschema, ⟨cause, hallowed⟩, before, line, hline⟩
  · intro h
    have hrun : ∃ t e, Pass.run (.ofStore store options) {} (Document.lines text.toList)
        = .failed t e := by
      rcases h with hids | ⟨hschema, ⟨cause, hallowed⟩, before, line, hline⟩
      · exact run_fails_of_runsOutOfIds hids
      · exact run_fails_of_stageDialogue (noSpeakers_ofStore.2 ⟨hschema, hallowed⟩) hline
    obtain ⟨t, e, hrun⟩ := hrun
    exact ⟨⟨e, t.trace⟩, parse_eq_error.2 ⟨t, hrun, rfl⟩⟩
  · intro failure hfailure
    obtain ⟨t, hrun, htrace⟩ := parse_eq_error.1 hfailure
    rcases cause_of_run_fails hrun with ⟨line, hl, he, hids⟩ | ⟨cause, before, line, hc, he, hrest⟩
    · rw [he]
      exact ⟨nofun, nofun, .inl ⟨line, hl, rfl, hids⟩⟩
    · obtain ⟨hschema, hallowed⟩ := noSpeakers_ofStore.1 hc
      rw [he, htrace]
      exact ⟨nofun, nofun, .inr ⟨cause, before, line, hschema, hallowed, rfl, hrest⟩⟩

/-- Two dialogues in a stage, and one before it that is not in a stage. -/
def grottoText : String := "Nora: psst\nStage: One #s1\n\n> drip #a1\nNora: hi\nNora: bye\n"

/-- The quest schema has no place for speakers. -/
def grottoStore : Store :=
  ({} : Store).insertSchema
    { id := Schema.questId, title := none, name := none, root := .object [] none }

def grottoCause : SchemaError := .unknownPath (pathText Speaker.path) "quest_start_moments"

theorem parse_grottoText :
    (parse grottoText grottoStore {}).map (fun _ => ())
      = .error ⟨.schema grottoCause, ["line 0: Nora: psst", "line 1: Stage: One #s1",
          "stage s1 at line 1", "line 3: > drip #a1", "line 4: Nora: hi"]⟩ := by
  rw [parse, parseIn_eq_run]
  decide +kernel

theorem parse_fails_iff_grotto :
    ∃ failure, parse grottoText grottoStore {} = .error failure ∧
      failure.error = .schema grottoCause ∧
      ∃ before line,
        StageDialogue (.ofStore grottoStore {}) (Document.lines grottoText.toList) before line ∧
        Session.lineTrace line = "line 4: Nora: hi" := by
  have hparse := parse_grottoText
  cases hr : parse grottoText grottoStore {} with
  | ok report =>
    rw [hr] at hparse
    cases hparse
  | error failure =>
    rw [hr] at hparse
    have heq := Except.error.inj hparse
    obtain ⟨-, -, ⟨_, _, he, _⟩ | ⟨cause, before, line, -, -, he, hline, -, htrace⟩⟩ :=
      (parse_fails_iff grottoText grottoStore {}).2 failure hr
    · rw [heq] at he
      cases he
    · rw [heq] at htrace
      refine ⟨failure, rfl, ?_, before, line, hline, (Option.some.inj htrace).symm⟩
      rw [heq]

/-- There is a quest schema whose speakers cannot be had, and a dialogue in a stage asks for them. -/
def AsksInVain (text : String) (store : Store) (options : ParseOptions) : Prop :=
  (store.schema? options.questSchemaId).isSome = true ∧
    (∃ cause, Speaker.allowed store options.questSchemaId = .error cause) ∧
    ∃ before line,
      StageDialogue (.ofStore store options) (Document.lines text.toList) before line

theorem parse_crowdedText (store : Store) {n : Nat} (hn : Ident.capacity < n) :
    ∃ failure index, parse (crowdedText n) store {} = .error failure ∧
      failure.error = .noFreeId index := by
  obtain ⟨-, t, index, hrun⟩ :=
    runsOutOfIds_crowdedText (show (ParseContext.ofStore store {}).labels = .default from rfl) hn
  exact ⟨⟨.noFreeId index, t.trace⟩, index, parse_eq_error.2 ⟨t, hrun, rfl⟩, rfl⟩

/-- A text that uses all ids up has no reading, with a quest schema or without one.  Without one
nothing asks for speakers in vain.  With the schema of the grotto a dialogue does, but the reading
does not come to it and never says so. -/
theorem not_fails_iff_asksInVain :
    ¬ ((∃ failure, parse (crowdedText (Ident.capacity + 1)) {} {} = .error failure) ↔
        AsksInVain (crowdedText (Ident.capacity + 1)) {} {}) ∧
    ¬ ((∃ failure cause,
          parse (crowdedText (Ident.capacity + 1)) grottoStore {} = .error failure ∧
          failure.error = .schema cause) ↔
        AsksInVain (crowdedText (Ident.capacity + 1)) grottoStore {}) := by
  have hn : Ident.capacity < Ident.capacity + 1 := Nat.lt_succ_self _
  constructor
  · intro h
    obtain ⟨failure, -, hparse, -⟩ := parse_crowdedText {} hn
    obtain ⟨hschema, -⟩ := h.1 ⟨failure, hparse⟩
    cases hschema
  · intro h
    have hschema : (grottoStore.schema? Schema.questId).isSome = true := by decide +kernel
    have hallowed : Speaker.allowed grottoStore Schema.questId = .error grottoCause := by
      decide +kernel
    have hasks : AsksInVain (crowdedText (Ident.capacity + 1)) grottoStore {} :=
      ⟨hschema, ⟨grottoCause, hallowed⟩, stageDialogue_crowdedText rfl (Nat.succ_pos _)⟩
    obtain ⟨failure, cause, hparse, herror⟩ := h.2 hasks
    obtain ⟨failure', index, hparse', herror'⟩ := parse_crowdedText grottoStore hn
    rw [hparse] at hparse'
    cases hparse'
    rw [herror] at herror'
    cases herror'

end Document
end Comfort
