import Comfort.Session.Stage

/-!
Reading a whole document.

Each line that is not blank is handled by its form: a comment is kept, a field is set, a stage is
read to its end, and everything else is reported as unfamiliar.  `Document.parse` is the reading of
a text from its first line to its last.
-/

namespace Comfort

inductive Field where
  | name
  | description
  | unlockedDescription
  deriving DecidableEq

namespace Field

/-- The field that a label in lower case stands for. -/
def ofLabel? (label : String) : Option Field :=
  if label = "name" then some name
  else if label = "description" then some description
  else if label = "unlocked description" then some unlockedDescription
  else none

def hoverText : Field → String
  | name => "Name: the comfort's display name"
  | description => "Description: shown while the comfort is locked"
  | unlockedDescription => "Unlocked Description: shown once the comfort is unlocked"

/-- A name is no text to be checked for spelling. -/
def isProse : Field → Bool
  | name => false
  | _ => true

def set (field : Field) (value : String) (r : Record) : Record :=
  match field with
  | name => { r with name := some value }
  | description => { r with description := some value }
  | unlockedDescription => { r with unlockedDescription := some value }

/-- The field that a line sets, with its label and its text. -/
def ofForm? : LineForm → Option (Field × Capture × Capture)
  | .label label text => (ofLabel? (lowercase label.value)).map fun field => (field, label, text)
  | _ => none

end Field

namespace Session

def setField (ctx : ParseContext) (s : Session) (range : TextRange) (field : Field)
    (label text : Capture) : Session :=
  let value := trimmed text.value
  let s := if field = .name ∧ value = "" then s.diagnose "Quest name required!" range else s
  let s := if field.isProse then s.spell ctx text else s
  let s := s.hover field.hoverText label.range
  { s with report := { s.report with record := field.set value s.report.record } }

def unfamiliar (s : Session) (line : SourceLine) (range : TextRange) : Session :=
  s.diagnose ("Unfamiliar syntax: " ++ line.text) range

def readLine (ctx : ParseContext) (s : Session) (line : SourceLine) : Step Unit :=
  if line.isBlank then .done (s.advance line) ()
  else
    let range := s.cursor.currentRange
    let s := s.traceLine line
    match ctx.classify? line with
    | none => .done ((s.unfamiliar line range).advance line) ()
    | some form =>
      if form.isComment then .done ((s.addComment form).advance line) ()
      else
        match Field.ofForm? form with
        | some (field, label, text) =>
          .done ((s.setField ctx range field label text).advance line) ()
        | none =>
          if form.isStage then s.readStage ctx line form
          else .done ((s.unfamiliar line range).advance line) ()

@[simp] theorem cursor_setField (ctx : ParseContext) (s : Session) (range : TextRange)
    (field : Field) (label text : Capture) :
    (s.setField ctx range field label text).cursor = s.cursor := by
  simp only [setField, cursor_hover]
  split <;> split <;> simp

theorem ahead_readLine_le (ctx : ParseContext) (s : Session) (line : SourceLine) :
    (s.readLine ctx line).state.cursor.ahead.length ≤ s.cursor.ahead.length := by
  unfold readLine
  split
  · simp [Outcome.state]
  · dsimp only
    split
    · simp [Outcome.state, unfamiliar]
    · split
      · simp [Outcome.state]
      · split
        · simp [Outcome.state]
        · split
          · exact Nat.le_trans (ahead_readStage_le ..) (by simp)
          · simp [Outcome.state, unfamiliar]

/-- Taking a line and handling it leaves fewer lines ahead. -/
theorem ahead_readLine_lt {ctx : ParseContext} {s t : Session} {line : SourceLine}
    {cursor : LineCursor} (h : s.cursor.take = .ok (some line, cursor))
    (h' : { s with cursor := cursor }.readLine ctx line = .done t ()) :
    t.cursor.ahead.length < s.cursor.ahead.length := by
  have hl := LineCursor.length_ahead_take h
  have hs := ahead_readLine_le ctx { s with cursor := cursor } line
  rw [h'] at hs
  simp only [Outcome.state] at hs
  omega

/-- Read the lines ahead, and check that all of the document was gone over. -/
def readLines (ctx : ParseContext) (s : Session) : Step Unit :=
  match h : s.cursor.take with
  | .error cause => .failed s (.cursorDesync cause)
  | .ok (none, cursor) => { s with cursor := cursor }.finished
  | .ok (some line, cursor) =>
    match h' : { s with cursor := cursor }.readLine ctx line with
    | .failed t e => .failed t e
    | .done t _ =>
      have := ahead_readLine_lt h h'
      readLines ctx t
termination_by s.cursor.ahead.length

end Session

/-- A fault that stopped a reading, with the trace up to it. -/
structure ParseFailure where
  error : ParseError
  trace : List String
  deriving DecidableEq

namespace Document

def parseIn (ctx : ParseContext) (text : List Char) : Except ParseFailure Report :=
  match (Session.ofText text).readLines ctx with
  | .done s _ => .ok s.report
  | .failed s e => .error { error := e, trace := s.trace }

/-- Read a text, looking the speakers up in a store. -/
def parse (text : String) (store : Store) (options : ParseOptions) : Except ParseFailure Report :=
  parseIn (ParseContext.ofStore store options) text.toList

end Document
end Comfort
