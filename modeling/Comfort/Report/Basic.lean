import Comfort.Report.Record
import Comfort.Text.Words

/-!
What the reading of a document reports: its record, and beside it the notes for an editor.
-/

namespace Comfort

/-- A problem in a document.  It never stops the reading. -/
structure Diagnostic where
  message : String
  range : TextRange
  deriving DecidableEq

structure Hover where
  content : String
  range : TextRange
  deriving DecidableEq

/-- What the text at `range` may be replaced with. -/
structure Completion where
  range : TextRange
  candidates : List String
  deriving DecidableEq

structure Edit where
  range : TextRange
  newText : String
  deriving DecidableEq

structure Report where
  diagnostics : List Diagnostic := []
  hovers : List Hover := []
  edits : List Edit := []
  completions : List Completion := []
  words : List Word := []
  record : Record := {}
  deriving DecidableEq

namespace Report

def addDiagnostic (r : Report) (message : String) (range : TextRange) : Report :=
  { r with diagnostics := r.diagnostics ++ [{ message := message, range := range }] }

def addHover (r : Report) (content : String) (range : TextRange) : Report :=
  { r with hovers := r.hovers ++ [{ content := content, range := range }] }

def addEdit (r : Report) (range : TextRange) (newText : String) : Report :=
  { r with edits := r.edits ++ [{ range := range, newText := newText }] }

def addCompletion (r : Report) (range : TextRange) (candidates : List String) : Report :=
  { r with completions := r.completions ++ [{ range := range, candidates := candidates }] }

def addWords (r : Report) (words : List Word) : Report :=
  { r with words := r.words ++ words }

def addComment (r : Report) (text : String) : Report :=
  { r with record := { r.record with comments := r.record.comments ++ [text] } }

def addStage (r : Report) (stage : Stage) : Report :=
  { r with record := { r.record with stages := r.record.stages ++ [stage] } }

end Report
end Comfort
