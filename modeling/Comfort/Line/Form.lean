import Comfort.Text.Lowercase
import Comfort.Text.Span

/-!
The forms a line of a document can take, with the pieces of text each of them carries.
-/

namespace Comfort

/-- A piece of a line and where it stands in the document. -/
structure Capture where
  value : String
  range : TextRange
  deriving DecidableEq

def Span.capture (s : Span) : Capture :=
  { value := s.text, range := s.range }

inductive LineForm where
  /-- `// text` -/
  | comment (text : Capture)
  /-- `Label: text`, where the label is a configured one. -/
  | label (label text : Capture)
  /-- `Stage: text #id` -/
  | stage (label text : Capture) (id : Option Capture)
  /-- `Speaker: text #id`, which has a meaning inside a stage only. -/
  | dialogue (speaker text : Capture) (id : Option Capture)
  /-- `> text #id`, which has a meaning inside a stage only. -/
  | narration (text : Capture) (id : Option Capture)
  deriving DecidableEq

namespace LineForm

def stageKey : String := "stage"

def text : LineForm → Capture
  | .comment text | .label _ text | .stage _ text _ | .dialogue _ text _ | .narration text _ => text

def label? : LineForm → Option Capture
  | .label name _ | .stage name _ _ => some name
  | _ => none

def speaker? : LineForm → Option Capture
  | .dialogue speaker _ _ => some speaker
  | _ => none

def id? : LineForm → Option Capture
  | .stage _ _ id | .dialogue _ _ id | .narration _ id => id
  | _ => none

/-- The label in lower case, by which fields are told apart. -/
def labelLower? (form : LineForm) : Option String :=
  form.label?.map fun c => lowercase c.value

def isComment : LineForm → Bool
  | .comment _ => true
  | _ => false

/-- A stage begins with a stage header, or with a label that reads as one. -/
def isStage : LineForm → Bool
  | .stage _ _ _ => true
  | .label name _ => lowercase name.value == stageKey
  | _ => false

def isStageElement : LineForm → Bool
  | .dialogue _ _ _ | .narration _ _ => true
  | _ => false

end LineForm
end Comfort
