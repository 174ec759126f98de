import Comfort.Proofs.Document.Failure
import Comfort.Proofs.Pass.Inversion
import Comfort.Proofs.Pass.Reading
import Comfort.Proofs.Store.Speakers
import Mathlib.Data.List.Forall2

/-!
The speakers of a document.

Each element of a stage comes from one line, in order, and says of its speaker what the check of the
speaker said there.  So where the quest schema is there, a dialogue refers to a mote that may speak,
or its speaker is marked as unknown and reported.
-/

namespace Comfort

/-- All elements in the order of the document. -/
def Record.elements (r : Record) : List StageElement :=
  r.stages.flatMap Stage.elements

namespace LineMeaning

/-- The place of a meaning for a speaker, and who is written there.  Only an element of an open stage
has one. -/
def speakerSlot? (inStage : Bool) : LineMeaning → Option (Option Capture)
  | element speaker _ _ => if inStage then some speaker else none
  | _ => none

theorem speakerSlot?_eq_none {inStage : Bool} {m : LineMeaning} (h : m.idSlot? inStage = none) :
    m.speakerSlot? inStage = none := by
  cases m with
  | element speaker text id =>
    cases inStage with
    | false => rfl
    | true => cases h
  | _ => rfl

end LineMeaning

/-- The elements of stages among lines, each by the speaker that is written there. -/
def voiced (ctx : ParseContext) (inStage : Bool) (lines : List SourceLine) :
    List (Option Capture) :=
  (ctx.staged inStage lines).filterMap fun (line, inStage) =>
    (line.meaning ctx.labels).speakerSlot? inStage

namespace Pass

variable {ctx : ParseContext} {p q : Pass} {line : SourceLine} {written : Option Capture}
  {element : StageElement} {diagnostics : List Diagnostic}

/-- The element says what the check of the speaker said. -/
def Voices (ctx : ParseContext) (diagnostics : List Diagnostic) (written : Option Capture)
    (element : StageElement) : Prop :=
  element.style = (if written.isSome then .dialogue else .text) ∧
    ∃ spoken, Speaks ctx written element.speaker element.speakerUnknown spoken ∧
      spoken.diagnostics ⊆ diagnostics

theorem Voices.mono {more : List Diagnostic} (h : Voices ctx diagnostics written element)
    (hsub : diagnostics ⊆ more) : Voices ctx more written element := by
  obtain ⟨hstyle, spoken, hspeaks, hspoken⟩ := h
  exact ⟨hstyle, spoken, hspeaks, List.Subset.trans hspoken hsub⟩

theorem subset_of_adds {r r' : Report} {notes : Notes} (h : Adds r r' notes) :
    r.diagnostics ⊆ r'.diagnostics ∧ notes.diagnostics ⊆ r'.diagnostics := by
  rw [h.diagnostics]
  exact ⟨List.subset_append_left _ _, List.subset_append_right _ _⟩

/-- A line that is an element of a stage adds one element, and no other line adds any. -/
theorem voices_step (hstage : p.HasStage) (hd : p.step ctx line = .done q ()) :
    ∃ added, q.report.record.elements = p.report.record.elements ++ added ∧
      p.report.diagnostics ⊆ q.report.diagnostics ∧
      List.Forall₂ (Voices ctx q.report.diagnostics)
        ((line.meaning ctx.labels).speakerSlot? p.inStage).toList added := by
  cases effect_of_step hd with
  | passes hm hpasses =>
    obtain ⟨-, hstages, notes, -, hadds⟩ := hpasses
    rw [LineMeaning.speakerSlot?_eq_none hm]
    refine ⟨[], ?_, (subset_of_adds hadds).1, .nil⟩
    rw [Record.elements, hstages, List.append_nil]
    rfl
  | opens hm hopens =>
    obtain ⟨-, hstages, hadds⟩ := hopens
    rw [hm]
    refine ⟨[], ?_, (subset_of_adds hadds).1, .nil⟩
    rw [Record.elements, hstages, List.flatMap_append]
    rfl
  | @plays speaker text _ who isUnknown id spoken hin hm hspeaks hplays =>
    obtain ⟨-, hstages, hadds⟩ := hplays
    have hslot : (line.meaning ctx.labels).speakerSlot? p.inStage = some speaker := by
      rw [hm, hin]
      rfl
    have hspoken : spoken.diagnostics ⊆ q.report.diagnostics := by
      refine List.Subset.trans ?_ (subset_of_adds hadds).2
      exact List.subset_append_of_subset_left _ (List.subset_append_left _ _)
    rw [hslot]
    refine ⟨[elementOf speaker text who isUnknown id], ?_, (subset_of_adds hadds).1, ?_⟩
    · rw [Record.elements, hstages, Record.flatMap_withElement (fun _ => rfl) (hstage hin)]
      rfl
    · exact .cons ⟨rfl, spoken, hspeaks, hspoken⟩ .nil

theorem voices_run {lines : List SourceLine} (hstage : p.HasStage)
    (hd : p.run ctx lines = .done q ()) :
    ∃ added, q.report.record.elements = p.report.record.elements ++ added ∧
      p.report.diagnostics ⊆ q.report.diagnostics ∧
      List.Forall₂ (Voices ctx q.report.diagnostics) (voiced ctx p.inStage lines) added := by
  induction lines generalizing p with
  | nil =>
    cases hd
    exact ⟨[], (List.append_nil _).symm, List.Subset.refl _, .nil⟩
  | cons line rest ih =>
    obtain ⟨t, _, ht, hd⟩ := Outcome.andThen_eq_done.1 hd
    obtain ⟨first, hfirst, hsub, hvoices⟩ := voices_step hstage ht
    obtain ⟨more, hmore, hrest, hothers⟩ := ih (hasStage_step hstage ht) hd
    refine ⟨first ++ more, ?_, List.Subset.trans hsub hrest, ?_⟩
    · rw [hmore, hfirst, List.append_assoc]
    · have hcut : voiced ctx p.inStage (line :: rest)
          = ((line.meaning ctx.labels).speakerSlot? p.inStage).toList
            ++ voiced ctx t.inStage rest :=
        filterMap_staged_cons _ rest ht
      rw [hcut]
      exact List.rel_append (hvoices.imp fun _ _ h => h.mono hrest) hothers

end Pass

/-! ## References to motes -/

/-- What an element says of its speaker where speakers are checked. -/
inductive HasSpeaker (store : Store) (questSchemaId : String) (diagnostics : List Diagnostic) :
    Option Capture → StageElement → Prop where
  | nobody {e : StageElement} (style : e.style = .text) (speaker : e.speaker = none) :
      HasSpeaker store questSchemaId diagnostics none e
  | unknown {c : Capture} {e : StageElement} (style : e.style = .dialogue)
      (marked : e.speakerUnknown = true)
      (reported : ⟨"Unknown speaker: " ++ c.value, c.range⟩ ∈ diagnostics) :
      HasSpeaker store questSchemaId diagnostics (some c) e
  | found {c : Capture} {e : StageElement} {id : String} (style : e.style = .dialogue)
      (marked : e.speakerUnknown = false) (speaker : e.speaker = some id)
      (allowed : store.MaySpeak questSchemaId id) :
      HasSpeaker store questSchemaId diagnostics (some c) e

variable {store : Store} {options : ParseOptions} {diagnostics : List Diagnostic}
  {written : Option Capture} {element : StageElement}

/-- An element that was checked refers to a mote that may speak, or to none. -/
theorem hasSpeaker_of_voices (hs : store.Reachable)
    (hq : (store.schema? options.questSchemaId).isSome)
    (h : Pass.Voices (.ofStore store options) diagnostics written element) :
    HasSpeaker store options.questSchemaId diagnostics written element := by
  obtain ⟨style, id, speaker, speakerUnknown, text⟩ := element
  obtain ⟨hstyle, spoken, hspeaks, hspoken⟩ := h
  dsimp only at hstyle hspeaks
  cases hspeaks with
  | nobody => exact .nobody hstyle rfl
  | unchecked hnone =>
    obtain ⟨schema, hschema⟩ := Option.isSome_iff_exists.1 hq
    exact absurd hnone (Speaker.allowed_ne_notFound hschema _)
  | found hall hfind =>
    exact .found hstyle rfl rfl
      (Store.maySpeak_of_mem_allowed hs hall (List.mem_of_find?_eq_some hfind))
  | unknown hall hfind => exact .unknown hstyle rfl (hspoken List.mem_cons_self)

namespace Document

/-- The elements of a record come from the elements of stages among the lines, in order. -/
theorem hasSpeaker_of_parse {text : String} {report : Report} (hs : store.Reachable)
    (hq : (store.schema? options.questSchemaId).isSome)
    (h : parse text store options = .ok report) :
    List.Forall₂ (HasSpeaker store options.questSchemaId report.diagnostics)
      (voiced (.ofStore store options) false (lines text.toList)) report.record.elements := by
  obtain ⟨p, hp, rfl⟩ := run_of_parse h
  have hstage : ({} : Pass).HasStage := nofun
  obtain ⟨added, hadded, -, hvoices⟩ := Pass.voices_run hstage hp
  have hall : p.report.record.elements = added := hadded
  rw [hall]
  exact hvoices.imp fun _ _ hv => hasSpeaker_of_voices hs hq hv

end Document
end Comfort
