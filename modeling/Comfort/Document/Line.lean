import Comfort.Text.Span

/-!
The lines of a document.

A document is cut after each line feed, so the raw lines are contiguous: each begins where the one
before it ends, and together they are the whole document.  The text of a line leaves out its
terminator.
-/

namespace Comfort

structure SourceLine where
  /-- Lines are counted from zero. -/
  index : Nat
  /-- The raw line, terminator included. -/
  range : TextRange
  /-- The line without its terminator. -/
  text : String
  deriving DecidableEq

namespace SourceLine

/-- The text as a span of the document. -/
def span (l : SourceLine) : Span :=
  { start := l.range.start, chars := l.text.toList }

/-- The range of the text, terminator excluded. -/
def contentRange (l : SourceLine) : TextRange :=
  l.span.range

/-- A line of blanks alone carries no meaning. -/
def isBlank (l : SourceLine) : Bool :=
  Text.allBlank l.text.toList

end SourceLine

namespace Document

/-- Cut after each line feed.  The empty text has no line. -/
def rawLines : List Char → List (List Char)
  | [] => []
  | c :: cs =>
    if c = '\n' then [c] :: rawLines cs
    else
      match rawLines cs with
      | [] => [[c]]
      | line :: rest => (c :: line) :: rest

def isTerminator (c : Char) : Bool :=
  c == '\r' || c == '\n'

/-- Number the raw lines and give them their offsets, beginning with line `index` at `start`. -/
def locate (index start : Nat) : List (List Char) → List SourceLine
  | [] => []
  | raw :: rest =>
    let stop := start + Text.byteLength raw
    { index := index
      range := { start := start, stop := stop }
      text := String.ofList (Text.dropEndWhile isTerminator raw) } :: locate (index + 1) stop rest

def lines (text : List Char) : List SourceLine :=
  locate 0 0 (rawLines text)

theorem flatten_rawLines (cs : List Char) : (rawLines cs).flatten = cs := by
  induction cs with
  | nil => rfl
  | cons c cs ih =>
    simp only [rawLines]
    split
    · simp [ih]
    · split
      · next h => simp [h] at ih; simp [ih]
      · next line rest h => rw [h] at ih; simp at ih; simp [ih]

end Document
end Comfort
