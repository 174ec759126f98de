import Comfort.Text.Bytes

/-!
Ranges of byte offsets.

Everything that is reported about a document is anchored with a range whose offsets count from the
start of the document, never from the start of a line.
-/

namespace Comfort

/-- The bytes from `start` up to, but not including, `stop`. -/
structure TextRange where
  start : Nat
  stop : Nat
  deriving DecidableEq

namespace TextRange

/-- A range whose ends are the wrong way round is empty. -/
def length (r : TextRange) : Nat :=
  r.stop - r.start

def isEmpty (r : TextRange) : Bool :=
  r.length == 0

/-- Whether `inner` is well formed and lies within `outer`. -/
def contains (outer inner : TextRange) : Bool :=
  outer.start ≤ inner.start && inner.stop ≤ outer.stop && inner.start ≤ inner.stop

def shift (r : TextRange) (base : Nat) : TextRange :=
  { start := r.start + base, stop := r.stop + base }

/-- Ranges are ordered by where they start, then by where they stop. -/
def before (a b : TextRange) : Bool :=
  a.start < b.start || (a.start == b.start && a.stop < b.stop)

/-- The piece of `cs` that the range addresses. -/
def slice (r : TextRange) (cs : List Char) : List Char :=
  Text.takeBytes r.length (Text.dropBytes r.start cs)

theorem slice_append (a b c : List Char) :
    slice ⟨Text.byteLength a, Text.byteLength a + Text.byteLength b⟩ (a ++ (b ++ c)) = b := by
  simp [slice, length, Text.dropBytes_byteLength_append, Text.takeBytes_byteLength_append]

end TextRange
end Comfort
