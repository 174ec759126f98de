import Comfort.Document.Line

/-!
Going through the lines of a document.

The cursor hands out the lines one by one and counts the bytes that have been gone over.  Whoever
takes a line has to advance past it: the next line is handed out only if it starts where the count
stands, and the document is used up only if the count has reached its end.
-/

namespace Comfort

/-- A cursor that does not stand where it should: at the start of line `line`, or at the end of the
document when `line` is the number of lines. -/
structure CursorDesync where
  line : Nat
  expected : Nat
  found : Nat
  deriving DecidableEq

structure LineCursor where
  lines : List SourceLine
  /-- The bytes of the document. -/
  length : Nat
  ahead : List SourceLine
  current : Option SourceLine
  /-- The bytes that have been gone over. -/
  index : Nat

namespace LineCursor

def ofText (text : List Char) : LineCursor :=
  { lines := Document.lines text
    length := Text.byteLength text
    ahead := Document.lines text
    current := none
    index := 0 }

def restart (c : LineCursor) : LineCursor :=
  { c with ahead := c.lines, current := none, index := 0 }

def peek? (c : LineCursor) : Option SourceLine :=
  c.ahead.head?

def take (c : LineCursor) : Except CursorDesync (Option SourceLine × LineCursor) :=
  match c.ahead with
  | [] => .ok (none, c)
  | line :: rest =>
    if line.range.start = c.index then
      .ok (some line, { c with ahead := rest, current := some line })
    else .error { line := line.index, expected := line.range.start, found := c.index }

/-- Go over a line, its terminator included. -/
def advance (c : LineCursor) (line : SourceLine) : LineCursor :=
  { c with index := c.index + line.range.length }

def seek (c : LineCursor) (index : Nat) : LineCursor :=
  { c with index := index }

/-- The range of the text of the current line.  It is the right one as long as the cursor has not
been advanced past that line. -/
def currentRange (c : LineCursor) : TextRange :=
  let length := match c.current with
    | none => 0
    | some line => Text.byteLength line.text.toList
  { start := c.index, stop := c.index + length }

/-- Whether the whole document has been gone over. -/
def finished (c : LineCursor) : Except CursorDesync Unit :=
  if c.index = c.length then .ok ()
  else .error { line := c.lines.length, expected := c.length, found := c.index }

/-- Each line taken leaves one line fewer. -/
theorem length_ahead_take {c c' : LineCursor} {line : SourceLine}
    (h : c.take = .ok (some line, c')) : c'.ahead.length + 1 = c.ahead.length := by
  unfold take at h
  split at h
  · simp at h
  · next l rest heq =>
    split at h
    · simp only [Except.ok.injEq, Prod.mk.injEq, Option.some.injEq] at h
      obtain ⟨-, rfl⟩ := h
      simp [heq]
    · simp at h

theorem length_ahead_take_le {c c' : LineCursor} {line : Option SourceLine}
    (h : c.take = .ok (line, c')) : c'.ahead.length ≤ c.ahead.length := by
  cases line with
  | some line => have := length_ahead_take h; omega
  | none =>
    unfold take at h
    split at h
    · simp only [Except.ok.injEq, Prod.mk.injEq, true_and] at h
      simp [h]
    · split at h <;> simp at h

@[simp] theorem ahead_advance (c : LineCursor) (line : SourceLine) :
    (c.advance line).ahead = c.ahead := rfl

end LineCursor
end Comfort
