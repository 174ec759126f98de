import Comfort.Proofs.Document.Cut
import Comfort.Proofs.Pass.Anchored

/-!
Replacing a piece of a line.

A text in which a piece of one line is replaced, by a text without a line feed, has as many lines as
before: the lines in front stay, the line has the new piece, and the lines behind it are moved.  The
content of the line stays apart from that of all others, so what stands in another line does not
stand in this one.
-/

namespace Comfort

/-- A text with another one in place of what stands at the range. -/
def TextRange.replace (r : TextRange) (new text : String) : String :=
  String.ofList
    (Text.takeBytes r.start text.toList ++ new.toList ++ Text.dropBytes r.stop text.toList)

theorem TextRange.toList_replace {text : String} {a b c : List Char}
    (h : text.toList = a ++ (b ++ c)) (new : String) :
    (replace ⟨Text.byteLength a, Text.byteLength a + Text.byteLength b⟩ new text).toList
      = a ++ (new.toList ++ c) := by
  rw [replace, String.toList_ofList, h]
  dsimp only
  rw [Text.takeBytes_byteLength_append, ← Text.byteLength_append, ← List.append_assoc a b,
    Text.dropBytes_byteLength_append, List.append_assoc]

namespace Document

/-! ## Raw lines -/

theorem locate_append (index start : Nat) (a b : List (List Char)) :
    locate index start (a ++ b)
      = locate index start a
        ++ locate (index + a.length) (start + Text.byteLength a.flatten) b := by
  induction a generalizing index start with
  | nil => rfl
  | cons raw rest ih =>
    have hindex : index + 1 + rest.length = index + (raw :: rest).length := by
      rw [List.length_cons]
      omega
    have hstart : start + Text.byteLength raw + Text.byteLength rest.flatten
        = start + Text.byteLength (raw :: rest).flatten := by
      rw [List.flatten_cons, Text.byteLength_append]
      omega
    rw [List.cons_append, locate_cons, ih, locate_cons, hindex, hstart]
    rfl

/-- A line among others comes from a raw line among others. -/
theorem exists_raw_of_locate {index start : Nat} {raws : List (List Char)}
    {before after : List SourceLine} {line : SourceLine}
    (h : locate index start raws = before ++ line :: after) :
    ∃ a raw b, raws = a ++ raw :: b ∧ before = locate index start a ∧
      line = lineAt (index + a.length) (start + Text.byteLength a.flatten) raw := by
  induction before generalizing index start raws with
  | nil =>
    cases raws with
    | nil => cases h
    | cons raw rest =>
      rw [locate_cons, List.nil_append, List.cons.injEq] at h
      exact ⟨[], raw, rest, rfl, rfl, h.1.symm⟩
  | cons first before ih =>
    cases raws with
    | nil => cases h
    | cons raw rest =>
      rw [locate_cons, List.cons_append, List.cons.injEq] at h
      obtain ⟨a, raw', b, rfl, rfl, rfl⟩ := ih h.2
      refine ⟨raw :: a, raw', b, rfl, ?_, ?_⟩
      · rw [locate_cons, h.1]
      · rw [List.length_cons, List.flatten_cons, Text.byteLength_append, Nat.add_assoc,
          Nat.add_assoc, Nat.add_comm 1]

theorem exists_raw_of_lines {text : List Char} {before after : List SourceLine} {line : SourceLine}
    (h : lines text = before ++ line :: after) :
    ∃ a raw b, rawLines text = a ++ raw :: b ∧ before = locate 0 0 a ∧
      line = lineAt a.length (Text.byteLength a.flatten) raw := by
  obtain ⟨a, raw, b, hraws, hbefore, hline⟩ := exists_raw_of_locate h
  rw [Nat.zero_add, Nat.zero_add] at hline
  exact ⟨a, raw, b, hraws, hbefore, hline⟩

/-- Another front of the first line leaves its end. -/
theorem Cut.replace_front {front front' back : List Char} {rest : List (List Char)}
    (h : Cut ((front ++ back) :: rest)) (hback : back ≠ []) (hn : '\n' ∉ front') :
    Cut ((front' ++ back) :: rest) := by
  generalize hraw : front ++ back = raw at h
  cases h with
  | last hne hline =>
    have hnot : '\n' ∉ back := fun hm => hline (by rw [← hraw]; exact List.mem_append_right _ hm)
    refine .last (List.append_ne_nil_of_right_ne_nil _ hback) ?_
    rw [List.mem_append]
    exact fun hm => hm.elim hn hnot
  | @cons body _ hbody hrest =>
    have hlast : back = back.dropLast ++ [back.getLast hback] :=
      (List.dropLast_append_getLast hback).symm
    rw [hlast, ← List.append_assoc] at hraw ⊢
    obtain ⟨hinit, hend⟩ := List.append_inj' hraw rfl
    rw [hend]
    refine .cons ?_ hrest
    rw [List.mem_append]
    rintro (hm | hm)
    · exact hn hm
    · exact hbody (by rw [← hinit]; exact List.mem_append_right _ hm)

/-- One of the lines can be replaced. -/
theorem Cut.replace_at {a b : List (List Char)} {raw raw' : List Char}
    (h : Cut (a ++ raw :: b)) (hraw : Cut (raw :: b) → Cut (raw' :: b)) :
    Cut (a ++ raw' :: b) := by
  induction a with
  | nil => exact hraw h
  | cons first rest ih =>
    have hlength : (rest ++ raw' :: b).length = (rest ++ raw :: b).length := by
      rw [List.length_append, List.length_append, List.length_cons, List.length_cons]
    exact h.replace_tail (ih h.tail) hlength

theorem Cut.of_append {a b : List (List Char)} (h : Cut (a ++ b)) : Cut b := by
  induction a with
  | nil => exact h
  | cons first rest ih => exact ih h.tail

/-- A line in front of others ends in a line feed. -/
theorem Cut.exists_body {raw : List Char} {rest : List (List Char)} (h : Cut (raw :: rest))
    (hrest : rest ≠ []) : ∃ body, raw = body ++ ['\n'] ∧ '\n' ∉ body := by
  cases h with
  | last _ _ => exact absurd rfl hrest
  | cons hn _ => exact ⟨_, rfl, hn⟩

theorem newline_not_mem_text {raw : List Char} {rest : List (List Char)} (h : Cut (raw :: rest))
    (index start : Nat) : '\n' ∉ (lineAt index start raw).text.toList := by
  rw [lineAt, String.toList_ofList]
  cases h with
  | last _ hn => exact fun hm => hn (Text.mem_of_mem_dropEndWhile hm)
  | cons hn _ =>
    rw [Text.dropEndWhile_append_singleton, if_pos (show isTerminator '\n' = true from rfl)]
    exact fun hm => hn (Text.mem_of_mem_dropEndWhile hm)

theorem newline_not_mem_of_mem_lines {text : List Char} {line : SourceLine}
    (h : line ∈ lines text) : '\n' ∉ line.text.toList := by
  obtain ⟨before, after, hlines⟩ := List.append_of_mem h
  obtain ⟨a, raw, b, hraws, -, rfl⟩ := exists_raw_of_lines hlines
  have hcut := cut_rawLines text
  rw [hraws] at hcut
  exact newline_not_mem_text hcut.of_append _ _

/-! ## Lines apart -/

theorem byteLength_dropEndWhile_le (p : Char → Bool) (cs : List Char) :
    Text.byteLength (Text.dropEndWhile p cs) ≤ Text.byteLength cs := by
  obtain ⟨rest, hrest⟩ := List.rdropWhile_prefix p cs
  have hlength := Text.byteLength_append (Text.dropEndWhile p cs) rest
  have hsplit : Text.dropEndWhile p cs ++ rest = cs := hrest
  rw [hsplit] at hlength
  omega

theorem stop_contentRange_lineAt (index start : Nat) (raw : List Char) :
    (lineAt index start raw).contentRange.stop
      = start + Text.byteLength (Text.dropEndWhile isTerminator raw) := by
  show start + Text.byteLength (String.ofList _).toList = _
  rw [String.toList_ofList]

theorem stop_contentRange_lt {raw : List Char} {rest : List (List Char)} (h : Cut (raw :: rest))
    (hrest : rest ≠ []) (index start : Nat) :
    (lineAt index start raw).contentRange.stop < start + Text.byteLength raw := by
  obtain ⟨body, rfl, -⟩ := h.exists_body hrest
  have hbody := byteLength_dropEndWhile_le isTerminator body
  have hsize : 0 < Text.byteLength ['\n'] := by decide
  rw [stop_contentRange_lineAt, Text.dropEndWhile_append_singleton,
    if_pos (show isTerminator '\n' = true from rfl), Text.byteLength_append]
  omega

theorem stop_lt_of_mem_locate {index start : Nat} {a b : List (List Char)} (h : Cut (a ++ b))
    (hb : b ≠ []) {line : SourceLine} (hl : line ∈ locate index start a) :
    line.contentRange.stop < start + Text.byteLength a.flatten := by
  induction a generalizing index start with
  | nil => cases hl
  | cons raw rest ih =>
    rw [List.flatten_cons, Text.byteLength_append]
    rw [locate_cons] at hl
    rcases List.mem_cons.1 hl with rfl | hl
    · have hlt := stop_contentRange_lt h (List.append_ne_nil_of_right_ne_nil rest hb) index start
      omega
    · have hlt := ih h.tail hl
      omega

theorem start_le_of_mem_locate {index start : Nat} {raws : List (List Char)} {line : SourceLine}
    (hl : line ∈ locate index start raws) : start ≤ line.contentRange.start := by
  induction raws generalizing index start with
  | nil => cases hl
  | cons raw rest ih =>
    rw [locate_cons] at hl
    rcases List.mem_cons.1 hl with rfl | hl
    · exact Nat.le_refl start
    · have hle := ih hl
      omega

/-- What stands in another line does not stand in this one. -/
theorem not_contains_of_inALine {a b : List (List Char)} {raw : List Char}
    (h : Cut (a ++ raw :: b)) {range : TextRange}
    (hrange : InALine
      (locate 0 0 a
        ++ locate (a.length + 1) (Text.byteLength a.flatten + Text.byteLength raw) b) range) :
    (lineAt a.length (Text.byteLength a.flatten) raw).contentRange.contains range = false := by
  obtain ⟨line, hl, hcontains⟩ := hrange
  obtain ⟨hstart, hstop, horder⟩ := TextRange.contains_iff.1 hcontains
  refine Bool.eq_false_iff.2 fun hhere => ?_
  obtain ⟨hstart', hstop', -⟩ := TextRange.contains_iff.1 hhere
  have hbegin : (lineAt a.length (Text.byteLength a.flatten) raw).contentRange.start
      = Text.byteLength a.flatten := rfl
  rcases List.mem_append.1 hl with hl | hl
  · have hlt := stop_lt_of_mem_locate h (List.cons_ne_nil raw b) hl
    omega
  · have hle := start_le_of_mem_locate hl
    have hb : b ≠ [] := by
      rintro rfl
      cases hl
    have hlt := stop_contentRange_lt h.of_append hb a.length (Text.byteLength a.flatten)
    omega

/-! ## A piece of a line -/

/-- The end of a line, less its terminator, is no terminator. -/
theorem dropTerminator_replace {raw front back : List Char} (hback : back ≠ [])
    (h : Text.dropEndWhile isTerminator raw = front ++ back) :
    ∃ terminator, raw = front ++ (back ++ terminator) ∧ ∀ front',
      Text.dropEndWhile isTerminator (front' ++ (back ++ terminator)) = front' ++ back := by
  refine ⟨raw.rtakeWhile isTerminator, ?_, fun front' => ?_⟩
  · have hsplit : Text.dropEndWhile isTerminator raw ++ raw.rtakeWhile isTerminator = raw :=
      List.rdropWhile_append_rtakeWhile ..
    rw [← List.append_assoc, ← h, hsplit]
  · have hlast : back = back.dropLast ++ [back.getLast hback] :=
      (List.dropLast_append_getLast hback).symm
    have hend : isTerminator (back.getLast hback) = false := by
      cases hterm : isTerminator (back.getLast hback) with
      | false => rfl
      | true =>
        have hagain : Text.dropEndWhile isTerminator (Text.dropEndWhile isTerminator raw)
            = Text.dropEndWhile isTerminator raw := List.rdropWhile_idempotent isTerminator raw
        rw [h, hlast, ← List.append_assoc, Text.dropEndWhile_append_singleton,
          if_pos hterm] at hagain
        have hle := (List.rdropWhile_prefix isTerminator (front ++ back.dropLast)).length_le
        have hlength := congrArg List.length hagain
        rw [List.length_append, List.length_singleton] at hlength
        unfold Text.dropEndWhile at hlength
        unfold List.rdropWhile at hle
        omega
    rw [← List.append_assoc,
      Text.dropEndWhile_append_of_all fun _ hc => List.mem_rtakeWhile_imp hc, hlast,
      ← List.append_assoc, Text.dropEndWhile_append_singleton, if_neg (by simp [hend])]

/-- Replacing a piece of a line that is followed by something in the line. -/
theorem lines_replace {text new : String} {before after : List SourceLine} {line : SourceLine}
    {front old back : List Char} (hlines : lines text.toList = before ++ line :: after)
    (htext : line.text.toList = front ++ (old ++ back)) (hback : back ≠ [])
    (hnew : '\n' ∉ new.toList) :
    let start := line.range.start + Text.byteLength front
    ∃ line' after', lines (TextRange.replace ⟨start, start + Text.byteLength old⟩ new text).toList
        = before ++ line' :: after' ∧
      line'.text.toList = front ++ (new.toList ++ back) ∧
      line'.range.start = line.range.start ∧ line'.index = line.index ∧
      ∀ range, InALine (before ++ after') range → line'.contentRange.contains range = false := by
  obtain ⟨a, raw, b, hraws, rfl, rfl⟩ := exists_raw_of_lines hlines
  have hcut : Cut (a ++ raw :: b) := by
    rw [← hraws]
    exact cut_rawLines text.toList
  have hn : '\n' ∉ front ++ new.toList := by
    have hline := newline_not_mem_text hcut.of_append a.length (Text.byteLength a.flatten)
    rw [htext] at hline
    rw [List.mem_append]
    exact fun hm => hm.elim (fun hm => hline (List.mem_append_left _ hm)) hnew
  rw [lineAt, String.toList_ofList, ← List.append_assoc] at htext
  obtain ⟨terminator, hraw, hagain⟩ := dropTerminator_replace hback htext
  have hdoc : text.toList = (a.flatten ++ front) ++ (old ++ (back ++ terminator ++ b.flatten)) := by
    have hflat := flatten_rawLines text.toList
    rw [hraws, List.flatten_append, List.flatten_cons, hraw] at hflat
    rw [← hflat]
    simp only [List.append_assoc]
  have hcut' : Cut (a ++ (front ++ new.toList ++ (back ++ terminator)) :: b) := by
    refine hcut.replace_at fun h => ?_
    rw [hraw] at h
    exact h.replace_front (List.append_ne_nil_of_left_ne_nil hback _) hn
  have hreplaced := TextRange.toList_replace hdoc new
  have hflatten : (a ++ (front ++ new.toList ++ (back ++ terminator)) :: b).flatten
      = (a.flatten ++ front) ++ (new.toList ++ (back ++ terminator ++ b.flatten)) := by
    rw [List.flatten_append, List.flatten_cons]
    simp only [List.append_assoc]
  have hstart : (lineAt a.length (Text.byteLength a.flatten) raw).range.start
      + Text.byteLength front = Text.byteLength (a.flatten ++ front) :=
    (Text.byteLength_append ..).symm
  dsimp only
  rw [hstart, hreplaced, ← hflatten, lines, rawLines_flatten hcut', locate_append, locate_cons,
    Nat.zero_add, Nat.zero_add]
  refine ⟨_, _, rfl, ?_, rfl, rfl, fun range hrange => not_contains_of_inALine hcut' hrange⟩
  rw [lineAt, String.toList_ofList, hagain, List.append_assoc]

end Document
end Comfort
