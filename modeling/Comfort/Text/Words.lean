import Comfort.Text.Alphabetic
import Comfort.Text.Range

/-!
Words for the spelling check.

A word is a run of letters, in which a single apostrophe may join two letters.  Digits, marks and
blanks separate words, and a word of one character is not worth checking.
-/

namespace Comfort

structure Word where
  text : String
  range : TextRange
  deriving DecidableEq

namespace Text

def isApostrophe (c : Char) : Bool :=
  c == '\'' || c == '’'

def startsAlphabetic (cs : List Char) : Bool :=
  cs.head?.any isAlphabetic

/-- How a word that has begun with a letter goes on at the head of a text. -/
def wordTail : List Char → List Char
  | [] => []
  | c :: cs =>
    if isAlphabetic c || (isApostrophe c && startsAlphabetic cs) then c :: wordTail cs else []

/-- Words shorter than this are left out. -/
def minWordLength : Nat := 2

/-- The word `cs` at offset `base`, unless it is too short. -/
def wordAt (base : Nat) (cs : List Char) : List Word :=
  if minWordLength ≤ cs.length then
    [{ text := String.ofList cs, range := { start := base, stop := base + byteLength cs } }]
  else []

/-- The words of a text that begins at offset `base`, in order. -/
def words (base : Nat) : List Char → List Word
  | [] => []
  | c :: cs =>
    if isAlphabetic c then
      let word := c :: wordTail cs
      wordAt base word ++ words (base + byteLength word) (cs.drop (wordTail cs).length)
    else words (base + c.utf8Size) cs
termination_by cs => cs.length
decreasing_by
  · simp only [List.length_drop, List.length_cons]
    omega
  · simp only [List.length_cons]
    omega

/-- The tail of a word is a piece of the text it is read from. -/
theorem wordTail_append_drop (cs : List Char) :
    wordTail cs ++ cs.drop (wordTail cs).length = cs := by
  induction cs with
  | nil => rfl
  | cons c cs ih =>
    simp only [wordTail]
    split
    · simp [ih]
    · simp

end Text
end Comfort
