import Comfort.Document.Line
import Comfort.Report.Basic
import Comfort.Text.Visible

/-!
Checking a report against its document.

Every range of a report has to lie inside the text of one line, and every word has to be what stands
at its range.
-/

namespace Comfort

inductive Violation where
  | outOfBounds (what : String) (range : TextRange) (length : Nat)
  | notInOneLine (what : String) (range : TextRange)
  /-- A range of a word that begins or ends inside a character. -/
  | splitsCharacter (atStart : Bool) (index : Nat) (character : Char) (place : TextRange)
  | wordDiffers (word : Word)
  deriving DecidableEq

namespace Violation

def rangeText (r : TextRange) : String :=
  "TextRange \x7b start: " ++ toString r.start ++ ", end: " ++ toString r.stop ++ " \x7d"

def message : Violation → String
  | outOfBounds what range length =>
    what ++ " range out of bounds: " ++ rangeText range ++ " (text len: " ++ toString length ++ ")"
  | notInOneLine what range =>
    what ++ " range " ++ rangeText range ++ " is not contained in a single line"
  | splitsCharacter atStart index character place =>
    (if atStart then "start" else "end") ++ " byte index " ++ toString index
      ++ " is not a char boundary; it is inside '" ++ String.ofList (Text.visible character)
      ++ "' (bytes " ++ toString place.start ++ ".." ++ toString place.stop ++ " of string)"
  | wordDiffers _ => "assertion \x60left == right\x60 failed: word text does not match its range"

end Violation

namespace Report

/-- Every range with the name of what it belongs to, in the order in which they are checked. -/
def ranges (r : Report) : List (String × TextRange) :=
  r.diagnostics.map (fun d => ("diagnostic", d.range))
    ++ r.hovers.map (fun h => ("hover", h.range))
    ++ r.completions.map (fun c => ("completion", c.range))
    ++ r.words.map (fun w => ("word", w.range))
    ++ r.edits.map (fun e => ("edit", e.range))

def checkRange (length : Nat) (contents : List TextRange) (what : String) (range : TextRange) :
    Except Violation Unit :=
  if !(range.start ≤ range.stop && range.stop ≤ length) then .error (.outOfBounds what range length)
  else if !contents.any (·.contains range) then .error (.notInOneLine what range)
  else .ok ()

/-- An offset that does not fall into a character. -/
def checkBoundary (text : List Char) (atStart : Bool) (index : Nat) : Except Violation Unit :=
  if Text.isBoundary index text then .ok ()
  else
    match Text.dropBytes index text with
    | c :: _ =>
      let before := Text.byteLength (Text.takeBytes index text)
      .error (.splitsCharacter atStart index c ⟨before, before + c.utf8Size⟩)
    | [] => .ok ()

def checkWord (text : List Char) (word : Word) : Except Violation Unit := do
  checkBoundary text true word.range.start
  checkBoundary text false word.range.stop
  if word.range.slice text = word.text.toList then .ok () else .error (.wordDiffers word)

def check (r : Report) (text : List Char) : Except Violation Unit := do
  let contents := (Document.lines text).map SourceLine.contentRange
  r.ranges.forM fun (what, range) => checkRange (Text.byteLength text) contents what range
  r.words.forM (checkWord text)

end Report
end Comfort
