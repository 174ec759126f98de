import Comfort.Report.Basic

/-!
Making insertions in a text.

All insertions are made at once: what each of them puts in stands at the offset that it names in the
text as it was.  Where the insertions are known to lie further on, the text in front of them stays.
-/

namespace Comfort
namespace Edit

/-- What is put in at one offset. -/
def textAt (edits : List Edit) (offset : Nat) : List Char :=
  (edits.filter fun e => e.range.start == offset).flatMap fun e => e.newText.toList

/-- Make the insertions in a text that begins at `offset`. -/
def insertFrom (edits : List Edit) : Nat → List Char → List Char
  | offset, [] => textAt edits offset
  | offset, c :: cs => textAt edits offset ++ c :: insertFrom edits (offset + c.utf8Size) cs

/-- Make all the insertions in a document. -/
def insertAll (edits : List Edit) (text : String) : String :=
  String.ofList (insertFrom edits 0 text.toList)

theorem textAt_cons (e : Edit) (edits : List Edit) (offset : Nat) :
    textAt (e :: edits) offset
      = if e.range.start = offset then e.newText.toList ++ textAt edits offset
        else textAt edits offset := by
  unfold textAt
  by_cases h : e.range.start = offset
  · rw [if_pos h, List.filter_cons_of_pos (by simpa using h), List.flatMap_cons]
  · rw [if_neg h, List.filter_cons_of_neg (by simpa using h)]

theorem textAt_of_lt {edits : List Edit} {offset : Nat}
    (h : ∀ e ∈ edits, offset < e.range.start) : textAt edits offset = [] := by
  induction edits with
  | nil => rfl
  | cons e rest ih =>
    have he : offset < e.range.start := h e List.mem_cons_self
    rw [textAt_cons, if_neg (by omega)]
    exact ih fun f hf => h f (List.mem_cons_of_mem _ hf)

/-- In front of the first insertion the text stays. -/
theorem insertFrom_append {edits : List Edit} {offset : Nat} {a : List Char}
    (h : ∀ e ∈ edits, offset + Text.byteLength a ≤ e.range.start) (b : List Char) :
    insertFrom edits offset (a ++ b)
      = a ++ insertFrom edits (offset + Text.byteLength a) b := by
  induction a generalizing offset with
  | nil => rfl
  | cons c a ih =>
    have hsize := c.utf8Size_pos
    have hlength : Text.byteLength (c :: a) = c.utf8Size + Text.byteLength a := rfl
    have hlt : ∀ e ∈ edits, offset < e.range.start := by
      intro e he
      have := h e he
      omega
    have hrest : ∀ e ∈ edits, offset + c.utf8Size + Text.byteLength a ≤ e.range.start := by
      intro e he
      have := h e he
      omega
    rw [List.cons_append, insertFrom, textAt_of_lt hlt, ih hrest, hlength, Nat.add_assoc]
    rfl

/-- An insertion behind which the text begins does nothing to it. -/
theorem insertFrom_cons_of_lt {e : Edit} {edits : List Edit} {offset : Nat}
    (h : e.range.start < offset) (cs : List Char) :
    insertFrom (e :: edits) offset cs = insertFrom edits offset cs := by
  induction cs generalizing offset with
  | nil => rw [insertFrom, insertFrom, textAt_cons, if_neg (by omega)]
  | cons c cs ih =>
    rw [insertFrom, insertFrom, textAt_cons, if_neg (by omega), ih (by omega)]

theorem insertFrom_cons_self (e : Edit) (edits : List Edit) (cs : List Char) :
    insertFrom (e :: edits) e.range.start cs
      = e.newText.toList ++ insertFrom edits e.range.start cs := by
  cases cs with
  | nil => rw [insertFrom, insertFrom, textAt_cons, if_pos rfl]
  | cons c cs =>
    have hsize := c.utf8Size_pos
    rw [insertFrom, insertFrom, textAt_cons, if_pos rfl, insertFrom_cons_of_lt (by omega),
      List.append_assoc]

/-- An insertion between two pieces of a text, where the others lie further on. -/
theorem insertFrom_append_append {e : Edit} {edits : List Edit} {offset : Nat}
    {a b : List Char} (he : e.range.start = offset + Text.byteLength a)
    (h : ∀ f ∈ edits, offset + Text.byteLength (a ++ b) ≤ f.range.start) (cs : List Char) :
    insertFrom (e :: edits) offset (a ++ b ++ cs)
      = a ++ e.newText.toList ++ b
          ++ insertFrom edits (offset + Text.byteLength (a ++ b)) cs := by
  have hlength := Text.byteLength_append a b
  have hfirst : ∀ f ∈ e :: edits, offset + Text.byteLength a ≤ f.range.start := by
    intro f hf
    rcases List.mem_cons.1 hf with rfl | hf
    · omega
    · have := h f hf
      omega
  have hrest : ∀ f ∈ edits, e.range.start + Text.byteLength b ≤ f.range.start := by
    intro f hf
    have := h f hf
    omega
  have hstop : e.range.start + Text.byteLength b = offset + Text.byteLength (a ++ b) := by
    omega
  rw [List.append_assoc, insertFrom_append hfirst, ← he, insertFrom_cons_self,
    insertFrom_append hrest, hstop]
  simp

end Edit
end Comfort
