import Comfort.Session.Ids
import Comfort.Session.Speakers

/-!
Reading a stage.

A stage is a header and the lines that follow it for as long as they are blank, comments, dialogues
or narrations.  The first other line ends the stage and is left ahead.
-/

namespace Comfort
namespace Session

/-! ## Elements -/

/-- The speaker of an element, and whether it is known not to be an allowed one. -/
def elementSpeaker (ctx : ParseContext) (s : Session) (form : LineForm) :
    Step (Option String × Bool) :=
  match form.speaker? with
  | none => .done s (none, false)
  | some c =>
    (s.resolveSpeaker ctx c).andThen fun s check =>
      match check with
      | .resolved id => .done s (some id, false)
      | .unknown => .done s (some (trimmed c.value), true)
      | .unchecked => .done s (some (trimmed c.value), false)

def elementStyle (form : LineForm) : ElementStyle :=
  if form.speaker?.isSome then .dialogue else .text

def missingText : ElementStyle → String
  | .dialogue => "Dialogue text required!"
  | .text => "Narration text required!"

def readElement (ctx : ParseContext) (s : Session) (line : SourceLine) (form : LineForm) :
    Step StageElement :=
  let s := (s.traceLine line).spell ctx form.text
  let text := trimmed form.text.value
  let style := elementStyle form
  (s.elementSpeaker ctx form).andThen fun s (speaker, speakerUnknown) =>
    let s := if text = "" then s.diagnose (missingText style) s.cursor.currentRange else s
    (s.claimId line form.id?).andThen fun s id =>
      .done s
        { style := style, id := some id, speaker := speaker, speakerUnknown := speakerUnknown,
          text := text }

/-! ## The body -/

/-- Whether a line goes on with a stage that has begun. -/
def continuesStage (ctx : ParseContext) (line : SourceLine) : Bool :=
  line.isBlank || (ctx.classify? line).any fun form => form.isComment || form.isStageElement

/-- Read the line of a stage body that was taken. -/
def readBodyLine (ctx : ParseContext) (s : Session) (line : SourceLine) :
    Step (Option StageElement) :=
  if line.isBlank then .done (s.advance line) none
  else
    match ctx.classify? line with
    | none => .done (s.advance line) none
    | some form =>
      if form.isComment then .done ((s.addComment form).advance line) none
      else
        (s.readElement ctx line form).andThen fun s element =>
          .done (s.advance line) (some element)

/-- Read the body, which consists of the given lines ahead. -/
def readBody (ctx : ParseContext) (s : Session) : List SourceLine → Step (List StageElement)
  | [] => .done s []
  | _ :: rest =>
    s.take.andThen fun s taken =>
      match taken with
      | none => .done s []
      | some line =>
        (s.readBodyLine ctx line).andThen fun s element =>
          (readBody ctx s rest).andThen fun s elements => .done s (element.toList ++ elements)

/-! ## The stage -/

/-- The name and the id in a stage header.  A header that was read as a label still has its id in
its text, so it is read again as a header. -/
def stageHeader? (line : SourceLine) (form : LineForm) : Option (Capture × Option Capture) :=
  let header :=
    match form with
    | .stage _ _ _ => some form
    | _ => LineForm.stageHeader? line.span
  header.map fun header => (header.text, header.id?)

def readHeader (ctx : ParseContext) (s : Session) (line : SourceLine) (name : Capture)
    (id : Option Capture) : Step String :=
  let s :=
    if trimmed name.value = "" then s.diagnose "Stage name required!" s.cursor.currentRange else s
  ((s.spell ctx name).claimId line id).andThen fun s id =>
    .done ((s.addTrace ("stage " ++ id ++ " at line " ++ toString line.index)).advance line) id

/-- Read the stage whose header is on the current line, and go past all of it. -/
def readStage (ctx : ParseContext) (s : Session) (line : SourceLine) (form : LineForm) :
    Step Unit :=
  match stageHeader? line form with
  | none => .failed s (.notAStageHeader line.index)
  | some (name, id) =>
    (s.readHeader ctx line name id).andThen fun s id =>
      (s.readBody ctx (s.cursor.ahead.takeWhile (continuesStage ctx))).andThen fun s elements =>
        .done (s.addStage { id := some id, name := trimmed name.value, elements := elements }) ()

/-! ## What is left ahead

Reading a stage never gives a line back. -/

theorem state_andThen {α β : Type} {s : Session} {o : Step α} {next : Session → α → Step β}
    (h : o.state.cursor.ahead.length ≤ s.cursor.ahead.length)
    (hn : ∀ t a, t.cursor.ahead.length ≤ s.cursor.ahead.length →
      (next t a).state.cursor.ahead.length ≤ s.cursor.ahead.length) :
    (o.andThen next).state.cursor.ahead.length ≤ s.cursor.ahead.length := by
  cases o with
  | done t a => exact hn t a h
  | failed t e => exact h

theorem ahead_claimId_le (s : Session) (line : SourceLine) (id : Option Capture) :
    (s.claimId line id).state.cursor.ahead.length ≤ s.cursor.ahead.length :=
  Nat.le_of_eq (by rw [cursor_claimId])

theorem ahead_readHeader_le (ctx : ParseContext) (s : Session) (line : SourceLine)
    (name : Capture) (id : Option Capture) :
    (s.readHeader ctx line name id).state.cursor.ahead.length ≤ s.cursor.ahead.length := by
  unfold readHeader
  refine state_andThen (Nat.le_trans (ahead_claimId_le ..) ?_) ?_
  · rw [cursor_spell]
    split <;> exact Nat.le_refl _
  · intro t id ht
    exact ht

theorem ahead_elementSpeaker_le (ctx : ParseContext) (s : Session) (form : LineForm) :
    (s.elementSpeaker ctx form).state.cursor.ahead.length ≤ s.cursor.ahead.length := by
  unfold elementSpeaker
  split
  · simp [Outcome.state]
  · refine state_andThen (Nat.le_of_eq (by rw [cursor_resolveSpeaker])) ?_
    intro t check ht
    cases check <;> exact ht

theorem ahead_readElement_le (ctx : ParseContext) (s : Session) (line : SourceLine)
    (form : LineForm) :
    (s.readElement ctx line form).state.cursor.ahead.length ≤ s.cursor.ahead.length := by
  unfold readElement
  refine state_andThen (Nat.le_trans (ahead_elementSpeaker_le ..) (by simp)) ?_
  intro t a ht
  refine state_andThen (Nat.le_trans (ahead_claimId_le ..) ?_) ?_
  · split <;> exact ht
  · intro u id hu
    exact hu

theorem ahead_readBodyLine_le (ctx : ParseContext) (s : Session) (line : SourceLine) :
    (s.readBodyLine ctx line).state.cursor.ahead.length ≤ s.cursor.ahead.length := by
  unfold readBodyLine
  split
  · simp [Outcome.state]
  · split
    · simp [Outcome.state]
    · split
      · simp [Outcome.state]
      · refine state_andThen (ahead_readElement_le ..) ?_
        intro t a ht
        simpa [Outcome.state] using ht

theorem ahead_take_le (s : Session) :
    s.take.state.cursor.ahead.length ≤ s.cursor.ahead.length := by
  unfold take
  split
  · next h => exact LineCursor.length_ahead_take_le h
  · exact Nat.le_refl _

theorem ahead_readBody_le (ctx : ParseContext) (s : Session) (body : List SourceLine) :
    (s.readBody ctx body).state.cursor.ahead.length ≤ s.cursor.ahead.length := by
  induction body generalizing s with
  | nil => exact Nat.le_refl _
  | cons line rest ih =>
    refine state_andThen (ahead_take_le s) ?_
    intro t taken ht
    cases taken with
    | none => exact ht
    | some line =>
      refine state_andThen (Nat.le_trans (ahead_readBodyLine_le ctx t line) ht) ?_
      intro u element hu
      refine state_andThen (Nat.le_trans (ih u) hu) ?_
      intro v elements hv
      exact hv

theorem ahead_readStage_le (ctx : ParseContext) (s : Session) (line : SourceLine)
    (form : LineForm) :
    (s.readStage ctx line form).state.cursor.ahead.length ≤ s.cursor.ahead.length := by
  unfold readStage
  split
  · exact Nat.le_refl _
  · next name id _ =>
    refine state_andThen (ahead_readHeader_le ctx s line name id) ?_
    intro t id ht
    refine state_andThen (Nat.le_trans (ahead_readBody_le ..) ht) ?_
    intro u elements hu
    exact hu

end Session
end Comfort
