import Comfort.Ident.Derive
import Comfort.Session.Basic

/-!
Ids of stages and elements.

An id that the author wrote is kept, and reported when it is taken already.  A line without an id
gets one that is derived from its place and its text, and an edit that writes it down is proposed.
-/

namespace Comfort
namespace Session

def idSeed (line : SourceLine) : String :=
  toString line.index ++ ":" ++ trimmed line.text

/-- The empty range at the end of what a line says. -/
def idPlace (line : SourceLine) : TextRange :=
  let place := line.range.start + Text.byteLength (Text.trimEnd line.text.toList)
  { start := place, stop := place }

def claimWritten (s : Session) (id : Capture) : Session :=
  if s.seen.contains id.value then s.diagnose ("Duplicate id: " ++ id.value) id.range
  else { s with seen := id.value :: s.seen }

def claimDerived (s : Session) (line : SourceLine) (id : String) : Session :=
  { s with seen := id :: s.seen }.propose (idPlace line) (" #" ++ id)

/-- Take the id of a line, which is derived where the author wrote none. -/
def claimId (s : Session) (line : SourceLine) : Option Capture → Step String
  | some id => .done (s.claimWritten id) id.value
  | none =>
    match Ident.fresh? s.seen (idSeed line) with
    | some id => .done (s.claimDerived line id) id
    | none => .failed s (.noFreeId line.index)

theorem cursor_claimId (s : Session) (line : SourceLine) (id : Option Capture) :
    (s.claimId line id).state.cursor = s.cursor := by
  unfold claimId
  split
  · simp only [Outcome.state, claimWritten]
    split <;> rfl
  · split <;> rfl

end Session
end Comfort
