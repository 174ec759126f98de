import Comfort.Text.Bytes

/-!
Scanning a text character by character.

A scanner holds what is left of the text and the number of bytes it has gone over.  Offsets it
reports are those of the document in which the text begins at `base`.
-/

namespace Comfort

structure Scanner where
  base : Nat
  offset : Nat
  rest : List Char

namespace Scanner

def ofText (base : Nat) (cs : List Char) : Scanner :=
  { base := base, offset := 0, rest := cs }

def position (s : Scanner) : Nat :=
  s.base + s.offset

def atEnd (s : Scanner) : Bool :=
  s.rest.isEmpty

def peek? (s : Scanner) : Option Char :=
  s.rest.head?

def peekNext? (s : Scanner) : Option Char :=
  s.rest.tail.head?

/-- Go over one character.  At the end there is nothing to go over and nothing changes. -/
def bump (s : Scanner) : Scanner :=
  match s.rest with
  | [] => s
  | c :: cs => { s with offset := s.offset + c.utf8Size, rest := cs }

/-- Go over the longest run on which `p` holds. -/
def bumpWhile (p : Char → Bool) (s : Scanner) : Scanner :=
  { s with
    offset := s.offset + Text.byteLength (s.rest.takeWhile p)
    rest := s.rest.dropWhile p }

end Scanner
end Comfort
