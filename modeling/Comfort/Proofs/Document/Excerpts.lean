import Comfort.Proofs.Document.Layout
import Comfort.Session.Basic

/-!
Excerpts of a document.

A slice that is too long is cut where a search from the greatest length allowed, one byte back at a
time, first comes to a boundary.  Zero is a boundary of every text, so the search ends, and it ends at
the greatest boundary there is: `excerpt` cuts at the same place without a search.  The text of a line
begins and ends at boundaries of its document, so every line has an excerpt for the trace:
`excerpts_of_document`.
-/

namespace Comfort
namespace Text

variable {n m : Nat} {cs : List Char}

/-! ## Boundaries -/

theorem isBoundary_iff : isBoundary n cs = true ↔ ∃ a b, cs = a ++ b ∧ byteLength a = n := by
  constructor
  · intro h
    exact ⟨takeBytes n cs, dropBytes n cs, (takeBytes_append_dropBytes n cs).symm, beq_iff_eq.1 h⟩
  · rintro ⟨a, b, rfl, rfl⟩
    exact isBoundary_append a b

theorem isBoundary_zero (cs : List Char) : isBoundary 0 cs = true :=
  isBoundary_append [] cs

theorem isBoundary_takeBytes (n : Nat) (cs : List Char) :
    isBoundary (byteLength (takeBytes n cs)) cs = true :=
  isBoundary_iff.2 ⟨_, _, (takeBytes_append_dropBytes n cs).symm, rfl⟩

theorem takeBytes_append {a : List Char} (h : byteLength a ≤ n) (b : List Char) :
    takeBytes n (a ++ b) = a ++ takeBytes (n - byteLength a) b := by
  induction a generalizing n with
  | nil => rfl
  | cons c a ih =>
    rw [byteLength_cons] at h
    have hc : c.utf8Size ≤ n := by omega
    have ha : byteLength a ≤ n - c.utf8Size := by omega
    rw [List.cons_append, takeBytes, if_pos hc, ih ha, byteLength_cons, Nat.sub_sub]
    rfl

/-- No boundary that is allowed lies behind the cut. -/
theorem le_byteLength_takeBytes (hm : isBoundary m cs = true) (h : m ≤ n) :
    m ≤ byteLength (takeBytes n cs) := by
  obtain ⟨a, b, rfl, rfl⟩ := isBoundary_iff.1 hm
  rw [takeBytes_append h, byteLength_append]
  exact Nat.le_add_right _ _

theorem takeBytes_takeBytes (n : Nat) (cs : List Char) :
    takeBytes (byteLength (takeBytes n cs)) cs = takeBytes n cs := by
  have h := takeBytes_byteLength_append (takeBytes n cs) (dropBytes n cs)
  rw [takeBytes_append_dropBytes] at h
  exact h

/-! ## Searching back -/

/-- The first boundary at or before `n`.  A search that went on below zero would find none. -/
def boundaryBack? (cs : List Char) : Nat → Option Nat
  | 0 => if isBoundary 0 cs then some 0 else none
  | n + 1 => if isBoundary (n + 1) cs then some (n + 1) else boundaryBack? cs n

theorem boundaryBack?_eq (cs : List Char) (n : Nat) :
    boundaryBack? cs n = some (byteLength (takeBytes n cs)) := by
  induction n with
  | zero =>
    have hzero := byteLength_takeBytes_le 0 cs
    rw [boundaryBack?, if_pos (isBoundary_zero cs), Nat.le_zero.1 hzero]
  | succ n ih =>
    rw [boundaryBack?]
    split
    · next h => rw [beq_iff_eq.1 h]
    · next h =>
      -- The cut at `n + 1` falls short of it, so it is the cut at `n`.
      have hle := byteLength_takeBytes_le (n + 1) cs
      have hne : byteLength (takeBytes (n + 1) cs) ≠ n + 1 := fun heq => h (beq_iff_eq.2 heq)
      have hfrom := le_byteLength_takeBytes (isBoundary_takeBytes (n + 1) cs)
        (show byteLength (takeBytes (n + 1) cs) ≤ n by omega)
      have hto := le_byteLength_takeBytes (isBoundary_takeBytes n cs)
        (Nat.le_succ_of_le (byteLength_takeBytes_le n cs))
      rw [ih, Nat.le_antisymm hto hfrom]

/-- A text that is short enough is shown whole.  Of any other the longest prefix is shown that ends at
a boundary and is short enough, and three dots. -/
def IsExcerpt (max : Nat) (cs shown : List Char) : Prop :=
  (byteLength cs ≤ max → shown = cs) ∧
  (max < byteLength cs → ∃ cut, cut <+: cs ∧ byteLength cut ≤ max ∧
    (∀ n, isBoundary n cs = true → n ≤ max → n ≤ byteLength cut) ∧ shown = cut ++ ['.', '.', '.'])

theorem isExcerpt_excerpt (max : Nat) (cs : List Char) : IsExcerpt max cs (excerpt max cs) := by
  refine ⟨excerpt_of_le, fun h => ⟨takeBytes max cs, ?_, ?_, ?_, ?_⟩⟩
  · exact ⟨dropBytes max cs, takeBytes_append_dropBytes max cs⟩
  · exact byteLength_takeBytes_le max cs
  · exact fun n hn hmax => le_byteLength_takeBytes hn hmax
  · rw [excerpt, if_neg (Nat.not_le.2 h)]

end Text

/-! ## Slices -/

/-- What stands at the range, if it begins and ends at boundaries. -/
def TextRange.slice? (r : TextRange) (text : List Char) : Option (List Char) :=
  if r.start ≤ r.stop ∧ Text.isBoundary r.start text ∧ Text.isBoundary r.stop text then
    some (r.slice text)
  else none

namespace Document

open Text (IsExcerpt excerpt boundaryBack?)

/-- The slice at a range, cut by searching back. -/
def preview? (max : Nat) (r : TextRange) (text : List Char) : Option (List Char) :=
  (r.slice? text).bind fun slice =>
    if Text.byteLength slice ≤ max then some slice
    else (boundaryBack? slice max).map fun cut => Text.takeBytes cut slice ++ ['.', '.', '.']

theorem preview?_eq {text : List Char} {r : TextRange} (hle : r.start ≤ r.stop)
    (hstart : Text.isBoundary r.start text = true) (hstop : Text.isBoundary r.stop text = true)
    (max : Nat) : preview? max r text = some (excerpt max (r.slice text)) := by
  rw [preview?, TextRange.slice?, if_pos ⟨hle, hstart, hstop⟩, Option.bind_some, excerpt]
  split
  · rfl
  · rw [Text.boundaryBack?_eq, Option.map_some, Text.takeBytes_takeBytes]

/-- Every range between boundaries of a document has an excerpt, of any length, and the search for the
cut never goes below zero.  So has the text of every line, and this is what is put into the trace. -/
theorem excerpts_of_document (text : List Char) :
    (∀ (r : TextRange) (max : Nat), r.start ≤ r.stop → Text.isBoundary r.start text = true →
      Text.isBoundary r.stop text = true →
      preview? max r text = some (excerpt max (r.slice text)) ∧
      (boundaryBack? (r.slice text) max).isSome ∧
      IsExcerpt max (r.slice text) (excerpt max (r.slice text))) ∧
    ∀ line ∈ lines text, ∃ shown, preview? Session.tracedLength line.contentRange text = some shown ∧
      IsExcerpt Session.tracedLength line.text.toList shown ∧
      ∀ s : Session, (s.traceLine line).trace
        = s.trace ++ ["line " ++ toString line.index ++ ": " ++ String.ofList shown] := by
  refine ⟨fun r max hle hstart hstop => ⟨preview?_eq hle hstart hstop max, ?_,
    Text.isExcerpt_excerpt max _⟩, fun line hline => ?_⟩
  · rw [Text.boundaryBack?_eq]
    rfl
  · obtain ⟨raw, hraw⟩ := liesIn_of_mem_lines hline
    obtain ⟨hstart, hstop, hslice⟩ := hraw.addresses_content
    have hle := (TextRange.contains_iff.1 hraw.contains_content).2.2
    refine ⟨_, preview?_eq hle hstart hstop _, ?_, fun s => ?_⟩
    · rw [hslice]
      exact Text.isExcerpt_excerpt Session.tracedLength line.text.toList
    · rw [hslice]
      rfl

def meadowsweetText : List Char := "> 😀😀 là\r\n".toList

/-- The cut falls into the second of two characters of four bytes, and the line ends in a return. -/
theorem excerpts_of_document_meadowsweet :
    preview? 7 ⟨2, 10⟩ meadowsweetText = some ['😀', '.', '.', '.'] ∧
    IsExcerpt 7 ['😀', '😀'] ['😀', '.', '.', '.'] ∧
    preview? Session.tracedLength ⟨0, 14⟩ meadowsweetText = some "> 😀😀 là".toList := by
  obtain ⟨hranges, hlines⟩ := excerpts_of_document meadowsweetText
  obtain ⟨hpreview, -, hexcerpt⟩ := hranges ⟨2, 10⟩ 7 (by decide) (by decide +kernel)
    (by decide +kernel)
  have hslice : TextRange.slice ⟨2, 10⟩ meadowsweetText = ['😀', '😀'] := by decide +kernel
  have hcut : excerpt 7 ['😀', '😀'] = ['😀', '.', '.', '.'] := by decide +kernel
  rw [hslice, hcut] at hpreview hexcerpt
  have hline : (⟨0, ⟨0, 16⟩, "> 😀😀 là"⟩ : SourceLine) ∈ lines meadowsweetText := by
    decide +kernel
  obtain ⟨shown, hshown, ⟨hwhole, -⟩, -⟩ := hlines _ hline
  refine ⟨hpreview, hexcerpt, ?_⟩
  rw [← hwhole (by decide +kernel), ← hshown]
  rfl

end Document
end Comfort
