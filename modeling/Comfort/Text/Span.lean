import Comfort.Text.Blank
import Comfort.Text.Range

/-!
Pieces of a document that know where they stand.

A `Span` is a run of characters together with the offset of its first byte.  Each move that narrows
a span moves its offset along, so the range of what remains is right without any further arithmetic.
-/

namespace Comfort

structure Span where
  start : Nat
  chars : List Char

namespace Span

def range (s : Span) : TextRange :=
  { start := s.start, stop := s.start + Text.byteLength s.chars }

def text (s : Span) : String :=
  String.ofList s.chars

/-- Drop the longest run at the front on which `p` holds. -/
def dropWhile (p : Char → Bool) (s : Span) : Span :=
  { start := s.start + Text.byteLength (s.chars.takeWhile p), chars := s.chars.dropWhile p }

def drop (n : Nat) (s : Span) : Span :=
  { start := s.start + Text.byteLength (s.chars.take n), chars := s.chars.drop n }

def take (n : Nat) (s : Span) : Span :=
  { s with chars := s.chars.take n }

def trimStart (s : Span) : Span :=
  s.dropWhile Text.isBlank

def trimEnd (s : Span) : Span :=
  { s with chars := Text.trimEnd s.chars }

/-- A span of blanks alone is trimmed to the empty span at its end. -/
def trim (s : Span) : Span :=
  s.trimStart.trimEnd

/-- What stands before and after the first `c`. -/
def splitFirst? (c : Char) (s : Span) : Option (Span × Span) :=
  if s.chars.contains c then
    let before := s.chars.takeWhile (· != c)
    some (s.take before.length, s.drop (before.length + 1))
  else none

/-- What stands before and after the last `c`. -/
def splitLast? (c : Char) (s : Span) : Option (Span × Span) :=
  if s.chars.contains c then
    let after := s.chars.reverse.takeWhile (· != c)
    let before := s.chars.length - after.length - 1
    some (s.take before, s.drop (before + 1))
  else none

end Span
end Comfort
