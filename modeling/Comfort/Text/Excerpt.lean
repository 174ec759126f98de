import Comfort.Text.Range

/-!
Excerpts for log lines and traces.
-/

namespace Comfort
namespace Text

/-- A text of more than `max` bytes is cut at the last character boundary that leaves at most `max`,
and three dots mark the cut. -/
def excerpt (max : Nat) (cs : List Char) : List Char :=
  if byteLength cs ≤ max then cs else takeBytes max cs ++ ['.', '.', '.']

theorem excerpt_of_le {max : Nat} {cs : List Char} (h : byteLength cs ≤ max) :
    excerpt max cs = cs := by
  simp [excerpt, h]

end Text
end Comfort
