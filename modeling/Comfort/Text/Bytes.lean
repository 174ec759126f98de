/-!
Byte offsets into text.

Positions in a document count the bytes of its UTF-8 form, while the text itself is a list of
characters.  `byteLength` measures a piece of text, and `takeBytes` and `dropBytes` cut it: the cut
falls on the last character boundary at or before the wanted offset, so it is exact whenever that
offset is a boundary.
-/

namespace Comfort
namespace Text

def byteLength : List Char → Nat
  | [] => 0
  | c :: cs => c.utf8Size + byteLength cs

/-- The longest prefix that has at most `n` bytes. -/
def takeBytes : Nat → List Char → List Char
  | _, [] => []
  | n, c :: cs => if c.utf8Size ≤ n then c :: takeBytes (n - c.utf8Size) cs else []

def dropBytes : Nat → List Char → List Char
  | _, [] => []
  | n, c :: cs => if c.utf8Size ≤ n then dropBytes (n - c.utf8Size) cs else c :: cs

/-- Whether byte offset `n` lies between two characters, or at one of the ends. -/
def isBoundary (n : Nat) (cs : List Char) : Bool :=
  byteLength (takeBytes n cs) == n

@[simp] theorem byteLength_nil : byteLength [] = 0 := rfl

@[simp] theorem byteLength_cons (c : Char) (cs : List Char) :
    byteLength (c :: cs) = c.utf8Size + byteLength cs := rfl

@[simp] theorem byteLength_append (a b : List Char) :
    byteLength (a ++ b) = byteLength a + byteLength b := by
  induction a with
  | nil => simp
  | cons c a ih => simp [ih, Nat.add_assoc]

theorem takeBytes_append_dropBytes (n : Nat) (cs : List Char) :
    takeBytes n cs ++ dropBytes n cs = cs := by
  induction cs generalizing n with
  | nil => rfl
  | cons c cs ih =>
    by_cases h : c.utf8Size ≤ n
    · simp [takeBytes, dropBytes, h, ih]
    · simp [takeBytes, dropBytes, h]

theorem byteLength_takeBytes_le (n : Nat) (cs : List Char) : byteLength (takeBytes n cs) ≤ n := by
  induction cs generalizing n with
  | nil => simp [takeBytes]
  | cons c cs ih =>
    by_cases h : c.utf8Size ≤ n
    · have := ih (n - c.utf8Size)
      simp only [takeBytes, h, if_true, byteLength_cons]
      omega
    · simp [takeBytes, h]

theorem takeBytes_byteLength_append (a b : List Char) :
    takeBytes (byteLength a) (a ++ b) = a := by
  induction a with
  | nil =>
    cases b with
    | nil => rfl
    | cons c b =>
      have := c.utf8Size_pos
      simp [takeBytes]
      omega
  | cons c a ih => simp [takeBytes, ih]

theorem dropBytes_byteLength_append (a b : List Char) :
    dropBytes (byteLength a) (a ++ b) = b := by
  have h := takeBytes_append_dropBytes (byteLength a) (a ++ b)
  rw [takeBytes_byteLength_append] at h
  exact List.append_cancel_left h

end Text
end Comfort
