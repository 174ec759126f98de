import Comfort.Document.Line
import Comfort.Line.Form
import Comfort.Line.Labels

/-!
The grammar of single lines.

A line is a comment, a label, a stage header, a dialogue or a narration, and the first of these that
it can be is what it is.  Where a line has a heading, that is the part before its first colon.  The
text that a line carries stands on one physical line: a line feed inside it makes the reading fail.
-/

namespace Comfort
namespace LineForm

def isIdChar (c : Char) : Bool :=
  c.isLower || c.isDigit || c == '_'

def isLabelChar (c : Char) : Bool :=
  c.isAlpha || c == ' '

def isSpeakerChar (c : Char) : Bool :=
  c.isAlphanum || c == '_' || c == ' '

/-- A heading begins with an ASCII letter. -/
def isHeading (p : Char → Bool) (cs : List Char) : Bool :=
  cs.head?.any Char.isAlpha && cs.all p

/-- The word `stage` in any case.  The long s counts as an s. -/
def isStageWord : List Char → Bool
  | [s, t, a, g, e] =>
    (s.toLower == 's' || s == 'ſ') && t.toLower == 't' && a.toLower == 'a' && g.toLower == 'g'
      && e.toLower == 'e'
  | _ => false

/-- The text of a line, unless a line feed stands inside it. -/
def plainText? (s : Span) : Option Capture :=
  if s.chars.contains '\n' then none else some s.capture

/-- What stands before the first colon, and after it, both without the blanks around them. -/
def heading? (s : Span) : Option (Span × Span) :=
  (s.trimStart.splitFirst? ':').map fun (head, rest) => (head.trimEnd, rest.trim)

/-- Split a trimmed text from the id that ends it.  Only what follows the last `#` can be an id. -/
def splitId (body : Span) : Span × Option Capture :=
  match body.splitLast? '#' with
  | none => (body, none)
  | some (text, id) =>
    if !id.chars.isEmpty && id.chars.all isIdChar then (text.trimEnd, some id.capture)
    else (body, none)

/-- At most one blank after the slashes is left out of the text. -/
def comment? (s : Span) : Option LineForm :=
  match s.trimStart.chars with
  | '/' :: '/' :: rest =>
    let blank := if rest.head?.any Text.isBlank then 1 else 0
    (plainText? (s.trimStart.drop (2 + blank)).trimEnd).map comment
  | _ => none

def configuredLabel? (labels : GlobalLabels) (s : Span) : Option LineForm := do
  let (head, body) ← heading? s
  let text ← plainText? body
  if isHeading isLabelChar head.chars && labels.contains head.text then
    some (label head.capture text)
  else none

def stageHeader? (s : Span) : Option LineForm := do
  let (head, body) ← heading? s
  let (text, id) := splitId body
  let text ← plainText? text
  if isStageWord head.chars then some (stage head.capture text id) else none

def dialogue? (s : Span) : Option LineForm := do
  let (head, body) ← heading? s
  let (text, id) := splitId body
  let text ← plainText? text
  if isHeading isSpeakerChar head.chars then some (dialogue head.capture text id) else none

def narration? (s : Span) : Option LineForm :=
  match s.trimStart.chars with
  | '>' :: _ =>
    let (text, id) := splitId (s.trimStart.drop 1).trim
    (plainText? text).map (narration · id)
  | _ => none

def classify? (labels : GlobalLabels) (line : SourceLine) : Option LineForm :=
  let s := line.span
  comment? s <|> configuredLabel? labels s <|> stageHeader? s <|> dialogue? s <|> narration? s

end LineForm
end Comfort
