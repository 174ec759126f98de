import Comfort.Document.Cursor

/-!
A cursor in step with its document.

The lines of a document are contiguous, so a cursor that goes past every line it takes always stands
where the next line begins.  In that state a line is never refused, the range of the current line is
the range of its text, and at the end the whole document has been gone over.
-/

namespace Comfort

/-- Lines that follow one another without a gap, from `start` up to `stop`. -/
def Contiguous (start : Nat) : List SourceLine → Nat → Prop
  | [], stop => start = stop
  | line :: rest, stop =>
    line.range.start = start ∧ start ≤ line.range.stop ∧ Contiguous line.range.stop rest stop

namespace Document

theorem contiguous_locate (index start : Nat) (raws : List (List Char)) :
    Contiguous start (locate index start raws) (start + Text.byteLength raws.flatten) := by
  induction raws generalizing index start with
  | nil => rfl
  | cons raw rest ih =>
    rw [List.flatten_cons, Text.byteLength_append, ← Nat.add_assoc]
    exact ⟨rfl, Nat.le_add_right _ _, ih (index + 1) (start + Text.byteLength raw)⟩

theorem contiguous_lines (text : List Char) :
    Contiguous 0 (lines text) (Text.byteLength text) := by
  have h := contiguous_locate 0 0 (rawLines text)
  rw [flatten_rawLines, Nat.zero_add] at h
  exact h

end Document

namespace LineCursor

/-- The cursor stands where the lines ahead begin. -/
def Synced (c : LineCursor) : Prop :=
  Contiguous c.index c.ahead c.length

/-- The cursor has taken `line` and has not gone past it. -/
structure Took (c : LineCursor) (line : SourceLine) : Prop where
  current : c.current = some line
  index : c.index = line.range.start
  ordered : line.range.start ≤ line.range.stop
  ahead : Contiguous line.range.stop c.ahead c.length

theorem synced_ofText (text : List Char) : (ofText text).Synced :=
  Document.contiguous_lines text

theorem take_nil {c : LineCursor} (ha : c.ahead = []) : c.take = .ok (none, c) := by
  simp [take, ha]

theorem take_cons {c : LineCursor} {line : SourceLine} {rest : List SourceLine} (h : c.Synced)
    (ha : c.ahead = line :: rest) :
    c.take = .ok (some line, { c with ahead := rest, current := some line }) := by
  rw [Synced, ha] at h
  simp [take, ha, h.1]

/-- A cursor in step never refuses a line. -/
theorem take_ne_error {c : LineCursor} {cause : CursorDesync} (h : c.Synced) :
    c.take ≠ .error cause := by
  cases ha : c.ahead with
  | nil => simp [take_nil ha]
  | cons line rest => simp [take_cons h ha]

theorem eq_of_take_none {c c' : LineCursor} (h : c.Synced) (ht : c.take = .ok (none, c')) :
    c.ahead = [] ∧ c' = c := by
  cases ha : c.ahead with
  | nil =>
    rw [take_nil ha] at ht
    cases ht
    exact ⟨rfl, rfl⟩
  | cons line rest =>
    rw [take_cons h ha] at ht
    cases ht

theorem eq_of_take_some {c c' : LineCursor} {line : SourceLine} (h : c.Synced)
    (ht : c.take = .ok (some line, c')) :
    c.ahead = line :: c'.ahead ∧ c' = { c with ahead := c'.ahead, current := some line } := by
  cases ha : c.ahead with
  | nil =>
    rw [take_nil ha] at ht
    cases ht
  | cons next rest =>
    rw [take_cons h ha] at ht
    cases ht
    exact ⟨rfl, rfl⟩

theorem took_take {c : LineCursor} {line : SourceLine} {rest : List SourceLine} (h : c.Synced)
    (ha : c.ahead = line :: rest) :
    { c with ahead := rest, current := some line }.Took line := by
  rw [Synced, ha] at h
  obtain ⟨hs, hle, hc⟩ := h
  exact ⟨rfl, hs.symm, by rw [hs]; exact hle, hc⟩

theorem currentRange_of_took {c : LineCursor} {line : SourceLine} (h : c.Took line) :
    c.currentRange = line.contentRange := by
  simp [currentRange, h.current, h.index, SourceLine.contentRange, SourceLine.span, Span.range]

theorem synced_advance {c : LineCursor} {line : SourceLine} (h : c.Took line) :
    (c.advance line).Synced := by
  have hi : c.index + line.range.length = line.range.stop := by
    rw [h.index, TextRange.length]
    have := h.ordered
    omega
  show Contiguous (c.index + line.range.length) c.ahead c.length
  rw [hi]
  exact h.ahead

theorem finished_of_synced {c : LineCursor} (h : c.Synced) (ha : c.ahead = []) :
    c.finished = .ok () := by
  rw [Synced, ha] at h
  have hi : c.index = c.length := h
  simp [finished, hi]

end LineCursor
end Comfort
