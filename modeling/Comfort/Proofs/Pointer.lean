import Comfort.Proofs.Json.Paths
import Mathlib.Data.List.Induction

/-!
The segments of a joined pointer.

Joining appends the segments of what is joined, whatever slashes it has, so a pointer below one that
addresses a field addresses a field as well.  What a pointer does to the data is an edit at its path.
-/

namespace Comfort
namespace Text

theorem pieces_append_cons (sep : Char) (a b : List Char) :
    pieces sep (a ++ sep :: b) = pieces sep a ++ pieces sep b := by
  induction a with
  | nil => simp [pieces]
  | cons c a ih =>
    by_cases hc : c = sep
    · simp [pieces, hc, ih]
    · simp only [List.cons_append, pieces, if_neg hc, ih]
      cases ha : pieces sep a with
      | nil => exact absurd ha (pieces_ne_nil sep a)
      | cons piece rest => rfl

theorem parts_append_cons (sep : Char) (a b : List Char) :
    parts sep (a ++ sep :: b) = parts sep a ++ parts sep b := by
  simp [parts, pieces_append_cons]

theorem parts_nil (sep : Char) : parts sep [] = [] := rfl

theorem parts_dropEndWhile (sep : Char) (cs : List Char) :
    parts sep (dropEndWhile (· == sep) cs) = parts sep cs := by
  induction cs using List.reverseRecOn with
  | nil => rfl
  | append_singleton cs c ih =>
    rw [dropEndWhile_append_singleton]
    by_cases hc : c = sep
    · subst hc
      have happ : parts c (cs ++ [c]) = parts c cs := by
        rw [parts_append_cons, parts_nil, List.append_nil]
      rw [if_pos (beq_self_eq_true c), ih, happ]
    · rw [if_neg]
      simpa using hc

theorem pieces_of_not_mem {sep : Char} {cs : List Char} (h : sep ∉ cs) : pieces sep cs = [cs] := by
  induction cs with
  | nil => rfl
  | cons c cs ih =>
    have hc : c ≠ sep := fun hc => h (hc ▸ List.mem_cons_self)
    have hcs : sep ∉ cs := fun hm => h (List.mem_cons_of_mem c hm)
    rw [pieces, if_neg hc, ih hcs]

/-- A text without the separator is its only part. -/
theorem parts_eq_singleton {sep : Char} {s : String} (hne : s ≠ "") (h : sep ∉ s.toList) :
    parts sep s.toList = [s] := by
  have hl : s.toList ≠ [] := fun hl => hne (String.toList_eq_nil_iff.1 hl)
  rw [parts, pieces_of_not_mem h]
  cases hs : s.toList with
  | nil => exact absurd hs hl
  | cons c cs =>
    show [String.ofList (c :: cs)] = [s]
    rw [← hs, String.ofList_toList]

theorem not_mem_of_mem_pieces {sep : Char} {cs piece : List Char} (h : piece ∈ pieces sep cs) :
    sep ∉ piece := by
  induction cs generalizing piece with
  | nil =>
    rw [List.mem_singleton.1 h]
    exact List.not_mem_nil
  | cons c cs ih =>
    rw [pieces] at h
    split at h
    · rcases List.mem_cons.1 h with rfl | h
      · exact List.not_mem_nil
      · exact ih h
    · next hc =>
      cases hpieces : pieces sep cs with
      | nil => exact absurd hpieces (pieces_ne_nil sep cs)
      | cons first rest =>
        rw [hpieces] at h ih
        rcases List.mem_cons.1 h with rfl | h
        · rw [List.mem_cons, not_or]
          exact ⟨Ne.symm hc, ih List.mem_cons_self⟩
        · exact ih (List.mem_cons_of_mem _ h)

theorem not_mem_of_mem_parts {sep : Char} {cs : List Char} {part : String} (h : part ∈ parts sep cs) :
    sep ∉ part.toList := by
  obtain ⟨piece, hpiece, rfl⟩ := List.mem_map.1 h
  rw [String.toList_ofList]
  exact not_mem_of_mem_pieces (List.mem_filter.1 hpiece).1

end Text

namespace Pointer

theorem segments_join (p : Pointer) (segment : String) :
    (p.join segment).segments = p.segments ++ Text.parts '/' segment.toList := by
  show Text.parts '/' (String.ofList _).toList = _
  rw [String.toList_ofList, Text.parts_append_cons, Text.parts_dropEndWhile]
  rfl

theorem segments_of_fieldPath? {p : Pointer} {path : List String}
    (h : p.fieldPath? = some path) : p.segments = root :: path ∧ path ≠ [] := by
  unfold fieldPath? dataSegments? at h
  cases hs : p.segments with
  | nil =>
    rw [hs] at h
    cases h
  | cons first rest =>
    rw [hs] at h
    dsimp only at h
    by_cases hf : first = root
    · rw [if_pos hf] at h
      cases rest with
      | nil => cases h
      | cons next rest =>
        cases h
        rw [hf]
        exact ⟨rfl, by simp⟩
    · rw [if_neg hf] at h
      cases h

theorem dataSegments?_of_segments {p : Pointer} {path : List String}
    (h : p.segments = root :: path) : p.dataSegments? = some path := by
  rw [dataSegments?, h]
  exact if_pos rfl

theorem fieldPath?_of_segments {p : Pointer} {path : List String} (h : p.segments = root :: path)
    (hne : path ≠ []) : p.fieldPath? = some path := by
  rw [fieldPath?, dataSegments?_of_segments h]
  cases path with
  | nil => exact absurd rfl hne
  | cons first rest => rfl

theorem fieldPath?_join {p : Pointer} {path : List String} (h : p.fieldPath? = some path)
    (segment : String) :
    (p.join segment).fieldPath? = some (path ++ Text.parts '/' segment.toList) := by
  obtain ⟨hs, hne⟩ := segments_of_fieldPath? h
  refine fieldPath?_of_segments ?_ ?_
  · rw [segments_join, hs, List.cons_append]
  · exact fun hnil => hne (List.append_eq_nil_iff.1 hnil).1

theorem lookup?_of_fieldPath? {p : Pointer} {path : List String} (h : p.fieldPath? = some path)
    (data : Json) : p.lookup? data = data.at? path := by
  rw [lookup?, dataSegments?_of_segments (segments_of_fieldPath? h).1]
  rfl

theorem apply_of_fieldPath? {p : Pointer} {path : List String} (h : p.fieldPath? = some path)
    (value : Option Json) (data : Json) : p.apply data value = .ok (Json.edit path value data) := by
  unfold apply
  rw [h]
  cases value with
  | none => rfl
  | some value => rfl

theorem apply_of_no_fieldPath {p : Pointer} (h : p.fieldPath? = none) (value : Option Json)
    (data : Json) : p.apply data value = .error { pointer := p } := by
  unfold apply
  rw [h]

end Pointer
end Comfort
