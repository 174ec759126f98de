/-!
Splitting a text at a character.
-/

namespace Comfort
namespace Text

/-- The pieces between the occurrences of `sep`, empty ones included.  There is always at least one
piece. -/
def pieces (sep : Char) : List Char → List (List Char)
  | [] => [[]]
  | c :: cs =>
    if c = sep then [] :: pieces sep cs
    else
      match pieces sep cs with
      | [] => [[c]]
      | piece :: rest => (c :: piece) :: rest

theorem pieces_ne_nil (sep : Char) (cs : List Char) : pieces sep cs ≠ [] := by
  cases cs with
  | nil => simp [pieces]
  | cons c cs =>
    simp only [pieces]
    split
    · simp
    · split <;> simp

def parts (sep : Char) (cs : List Char) : List String :=
  ((pieces sep cs).filter fun piece => !piece.isEmpty).map String.ofList

end Text
end Comfort
