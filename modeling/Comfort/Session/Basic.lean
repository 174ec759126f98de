import Comfort.Document.Cursor
import Comfort.Line.Grammar
import Comfort.Mote.Speaker
import Comfort.Report.Basic
import Comfort.Text.Excerpt

/-!
The state of a reading.

A session joins the cursor with what the reading has gathered so far: the report, the ids that are
taken, and a trace of what was handled.  Each move below changes one of them.
-/

namespace Comfort

/-- Faults that stop the reading of a document.  What is wrong with its content is reported by
diagnostics instead. -/
inductive ParseError where
  | cursorDesync (cause : CursorDesync)
  | notAStageHeader (line : Nat)
  | schema (cause : SchemaError)
  /-- Every attempt to derive an id for the line met one that is taken.  The search for an id has no
  result then, and neither has the reading. -/
  | noFreeId (line : Nat)
  deriving DecidableEq

namespace ParseError

def message : ParseError → String
  | cursorDesync cause =>
    "cursor desynchronized at line " ++ toString cause.line ++ ": line starts at "
      ++ toString cause.expected ++ ", cursor at " ++ toString cause.found
  | notAStageHeader line =>
    "line " ++ toString line ++ " was dispatched as a stage but is not a stage header"
  | schema cause => "speaker schema is unusable: " ++ cause.message
  | noFreeId line => "no free id for line " ++ toString line

end ParseError

structure ParseOptions where
  /-- Collect the words for the spelling check. -/
  checkSpelling : Bool := true
  labels : GlobalLabels := .default
  /-- The schema that says who may speak. -/
  questSchemaId : String := Schema.questId

structure ParseContext where
  checkSpelling : Bool
  labels : GlobalLabels
  /-- The allowed speakers, or why they cannot be had. -/
  speakers : Except SchemaError (List Speaker)

namespace ParseContext

def ofStore (store : Store) (options : ParseOptions) : ParseContext :=
  { checkSpelling := options.checkSpelling
    labels := options.labels
    speakers := Speaker.allowed store options.questSchemaId }

def classify? (ctx : ParseContext) (line : SourceLine) : Option LineForm :=
  LineForm.classify? ctx.labels line

end ParseContext

structure Session where
  cursor : LineCursor
  report : Report := {}
  seen : List String := []
  trace : List String := []

namespace Session

/-- What a move that can fail makes of a session. -/
abbrev Step (α : Type) := Outcome Session ParseError α

def ofText (text : List Char) : Session :=
  { cursor := LineCursor.ofText text }

/-! ## The cursor -/

def restart (s : Session) : Session :=
  { s with cursor := s.cursor.restart }

def advance (s : Session) (line : SourceLine) : Session :=
  { s with cursor := s.cursor.advance line }

def seek (s : Session) (index : Nat) : Session :=
  { s with cursor := s.cursor.seek index }

def take (s : Session) : Step (Option SourceLine) :=
  match s.cursor.take with
  | .ok (line, cursor) => .done { s with cursor := cursor } line
  | .error cause => .failed s (.cursorDesync cause)

def finished (s : Session) : Step Unit :=
  match s.cursor.finished with
  | .ok _ => .done s ()
  | .error cause => .failed s (.cursorDesync cause)

def classifyCurrent? (ctx : ParseContext) (s : Session) : Option LineForm :=
  s.cursor.current.bind ctx.classify?

/-! ## The trace -/

/-- Longer lines are cut in the trace. -/
def tracedLength : Nat := 60

def addTrace (s : Session) (entry : String) : Session :=
  { s with trace := s.trace ++ [entry] }

def lineTrace (line : SourceLine) : String :=
  "line " ++ toString line.index ++ ": "
    ++ String.ofList (Text.excerpt tracedLength line.text.toList)

def traceLine (s : Session) (line : SourceLine) : Session :=
  s.addTrace (lineTrace line)

def clearTrace (s : Session) : Session :=
  { s with trace := [] }

/-! ## The report -/

def diagnose (s : Session) (message : String) (range : TextRange) : Session :=
  { s with report := s.report.addDiagnostic message range }

def hover (s : Session) (content : String) (range : TextRange) : Session :=
  { s with report := s.report.addHover content range }

def propose (s : Session) (range : TextRange) (newText : String) : Session :=
  { s with report := s.report.addEdit range newText }

def complete (s : Session) (range : TextRange) (candidates : List String) : Session :=
  { s with report := s.report.addCompletion range candidates }

def addComment (s : Session) (form : LineForm) : Session :=
  { s with report := s.report.addComment form.text.value }

def addStage (s : Session) (stage : Stage) : Session :=
  { s with report := s.report.addStage stage }

/-- Hand the words of a piece of text to the spelling check. -/
def spell (ctx : ParseContext) (s : Session) (c : Capture) : Session :=
  if ctx.checkSpelling then
    { s with report := s.report.addWords (Text.words c.range.start c.value.toList) }
  else s

/-! ## Where the cursor stands

None of the moves on the trace and the report touches the cursor. -/

@[simp] theorem cursor_advance (s : Session) (line : SourceLine) :
    (s.advance line).cursor = s.cursor.advance line := rfl

@[simp] theorem cursor_addTrace (s : Session) (entry : String) :
    (s.addTrace entry).cursor = s.cursor := rfl

@[simp] theorem cursor_traceLine (s : Session) (line : SourceLine) :
    (s.traceLine line).cursor = s.cursor := rfl

@[simp] theorem cursor_diagnose (s : Session) (message : String) (range : TextRange) :
    (s.diagnose message range).cursor = s.cursor := rfl

@[simp] theorem cursor_hover (s : Session) (content : String) (range : TextRange) :
    (s.hover content range).cursor = s.cursor := rfl

@[simp] theorem cursor_propose (s : Session) (range : TextRange) (newText : String) :
    (s.propose range newText).cursor = s.cursor := rfl

@[simp] theorem cursor_complete (s : Session) (range : TextRange) (candidates : List String) :
    (s.complete range candidates).cursor = s.cursor := rfl

@[simp] theorem cursor_addComment (s : Session) (form : LineForm) :
    (s.addComment form).cursor = s.cursor := rfl

@[simp] theorem cursor_addStage (s : Session) (stage : Stage) :
    (s.addStage stage).cursor = s.cursor := rfl

@[simp] theorem cursor_spell (ctx : ParseContext) (s : Session) (c : Capture) :
    (s.spell ctx c).cursor = s.cursor := by
  unfold spell
  split <;> rfl

end Session
end Comfort
