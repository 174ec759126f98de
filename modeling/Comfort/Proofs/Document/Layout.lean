import Comfort.Proofs.Document.Ranges
import Comfort.Proofs.Document.Splice

/-!
How the lines of a document lie in it.

The raw lines tile the document, each has a line feed at its end and nowhere else, and what is shown
of a line is its raw line without the carriage returns and line feeds that it ends in.  Everything
that is reported about a document counts on these offsets: `lines_layout` says all of it at once.
-/

namespace Comfort

/-! ## What stands at a range -/

/-- The range begins and ends between two characters of the text, and `cs` is what stands there. -/
structure TextRange.Addresses (r : TextRange) (text cs : List Char) : Prop where
  start : Text.isBoundary r.start text = true
  stop : Text.isBoundary r.stop text = true
  slice : r.slice text = cs

theorem TextRange.addresses_append (a b c : List Char) :
    Addresses ⟨Text.byteLength a, Text.byteLength a + Text.byteLength b⟩ (a ++ (b ++ c)) b where
  start := Text.isBoundary_append a (b ++ c)
  stop := by
    rw [← List.append_assoc, ← Text.byteLength_append]
    exact Text.isBoundary_append (a ++ b) c
  slice := TextRange.slice_append a b c

/-- Where a line stands in its document, with its raw line. -/
structure SourceLine.LiesIn (text raw : List Char) (line : SourceLine) : Prop where
  nonempty : line.range.start < line.range.stop
  addresses_raw : line.range.Addresses text raw
  newline_last : '\n' ∉ raw.dropLast
  /-- What is left out of the text of the line is a terminator, and the longest one. -/
  terminated : ∃ terminator, raw = line.text.toList ++ terminator ∧
    ∀ c ∈ terminator, c = '\r' ∨ c = '\n'
  unterminated : ∀ c ∈ line.text.toList.getLast?, c ≠ '\r' ∧ c ≠ '\n'
  contains_content : line.range.contains line.contentRange = true
  addresses_content : line.contentRange.Addresses text line.text.toList

theorem Text.byteLength_pos {cs : List Char} (h : cs ≠ []) : 0 < byteLength cs := by
  cases cs with
  | nil => exact absurd rfl h
  | cons c cs =>
    have hpos := c.utf8Size_pos
    rw [byteLength_cons]
    omega

theorem Text.getLast?_dropEndWhile {p : Char → Bool} {cs : List Char} {c : Char}
    (h : c ∈ (dropEndWhile p cs).getLast?) : p c = false := by
  have hhead : (cs.reverse.dropWhile p).head? = some c := by
    rw [← List.getLast?_reverse]
    exact h
  have hnot := List.head?_dropWhile_not p cs.reverse
  rw [hhead] at hnot
  simpa using hnot

namespace Document

theorem isTerminator_iff {c : Char} : isTerminator c = true ↔ c = '\r' ∨ c = '\n' := by
  simp [isTerminator]

/-! ## Raw lines -/

theorem lines_eq_nil_iff {text : List Char} : lines text = [] ↔ text = [] := by
  constructor
  · intro h
    have hraws : rawLines text = [] := by
      rw [← List.length_eq_zero_iff, ← length_locate 0 0]
      exact congrArg List.length h
    rw [← flatten_rawLines text, hraws]
    rfl
  · rintro rfl
    rfl

theorem Cut.ne_nil {raw : List Char} {rest : List (List Char)} (h : Cut (raw :: rest)) :
    raw ≠ [] := by
  cases h with
  | last hne _ => exact hne
  | cons _ _ => exact List.append_ne_nil_of_right_ne_nil _ (List.cons_ne_nil _ _)

theorem Cut.newline_not_mem_dropLast {raw : List Char} {rest : List (List Char)}
    (h : Cut (raw :: rest)) : '\n' ∉ raw.dropLast := by
  cases h with
  | last _ hn => exact fun hm => hn ((List.dropLast_sublist raw).mem hm)
  | cons hn _ =>
    rw [List.dropLast_concat]
    exact hn

theorem exists_terminator (raw : List Char) :
    ∃ terminator, raw = Text.dropEndWhile isTerminator raw ++ terminator ∧
      ∀ c ∈ terminator, isTerminator c = true :=
  ⟨raw.rtakeWhile isTerminator, (List.rdropWhile_append_rtakeWhile ..).symm,
    fun _ hc => List.mem_rtakeWhile_imp hc⟩

theorem liesIn_lineAt {a b : List (List Char)} {raw : List Char} (h : Cut (raw :: b))
    (index : Nat) :
    (lineAt index (Text.byteLength a.flatten) raw).LiesIn (a ++ raw :: b).flatten raw := by
  obtain ⟨shown, hshown⟩ : ∃ shown, Text.dropEndWhile isTerminator raw = shown := ⟨_, rfl⟩
  obtain ⟨terminator, hraw, hterm⟩ := exists_terminator raw
  rw [hshown] at hraw
  have htext : (lineAt index (Text.byteLength a.flatten) raw).text.toList = shown := by
    rw [lineAt, String.toList_ofList, hshown]
  have hcontent : (lineAt index (Text.byteLength a.flatten) raw).contentRange
      = ⟨Text.byteLength a.flatten, Text.byteLength a.flatten + Text.byteLength shown⟩ := by
    rw [SourceLine.contentRange, SourceLine.span, Span.range, htext]
    rfl
  have hdoc : (a ++ raw :: b).flatten = a.flatten ++ (raw ++ b.flatten) := by
    rw [List.flatten_append, List.flatten_cons]
  have hpos := Text.byteLength_pos h.ne_nil
  refine
    { nonempty := Nat.lt_add_of_pos_right hpos
      addresses_raw := ?_
      newline_last := h.newline_not_mem_dropLast
      terminated := ⟨terminator, by rw [htext, hraw], fun c hc => isTerminator_iff.1 (hterm c hc)⟩
      unterminated := ?_
      contains_content := ?_
      addresses_content := ?_ }
  · rw [hdoc]
    exact TextRange.addresses_append a.flatten raw b.flatten
  · intro c hc
    rw [htext, ← hshown] at hc
    have hnot := Text.getLast?_dropEndWhile hc
    rw [Bool.eq_false_iff, Ne, isTerminator_iff, not_or] at hnot
    exact hnot
  · have hlength : Text.byteLength raw = Text.byteLength shown + Text.byteLength terminator := by
      rw [hraw, Text.byteLength_append]
    rw [TextRange.contains_iff, hcontent]
    exact ⟨Nat.le_refl _, by simp only [lineAt]; omega, Nat.le_add_right _ _⟩
  · rw [hcontent, htext, hdoc, hraw, List.append_assoc]
    exact TextRange.addresses_append a.flatten shown (terminator ++ b.flatten)

/-- The line after `before` has as many lines in front of it as its number says. -/
theorem exists_liesIn {text : List Char} {before after : List SourceLine} {line : SourceLine}
    (h : lines text = before ++ line :: after) :
    line.index = before.length ∧
      ∃ raw, line.LiesIn text raw ∧ (after ≠ [] → raw.getLast? = some '\n') := by
  have hcount := congrArg List.length h
  obtain ⟨a, raw, b, hraws, rfl, rfl⟩ := exists_raw_of_lines h
  have hcut : Cut (raw :: b) := by
    have hall := cut_rawLines text
    rw [hraws] at hall
    exact hall.of_append
  have htext : text = (a ++ raw :: b).flatten := by rw [← hraws, flatten_rawLines]
  refine ⟨(length_locate 0 0 a).symm, raw, ?_, fun hafter => ?_⟩
  · rw [htext]
    exact liesIn_lineAt hcut a.length
  · -- There are as many lines after it as raw lines.
    have hb : b ≠ [] := by
      rintro rfl
      rw [lines, length_locate, hraws] at hcount
      simp only [List.length_append, List.length_cons, length_locate, List.length_nil] at hcount
      exact hafter (List.length_eq_zero_iff.1 (by omega))
    obtain ⟨body, rfl, -⟩ := hcut.exists_body hb
    exact List.getLast?_concat

theorem liesIn_of_mem_lines {text : List Char} {line : SourceLine} (h : line ∈ lines text) :
    ∃ raw, line.LiesIn text raw := by
  obtain ⟨before, after, hlines⟩ := List.append_of_mem h
  obtain ⟨-, raw, hraw, -⟩ := exists_liesIn hlines
  exact ⟨raw, hraw⟩

/-- The lines of a text are numbered from zero, and their raw ranges, none of them empty, follow one
another from the start of the text to its end.  A raw line has a line feed at its end only, and only
the last one can be without.  The text of a line is its raw line without the longest run of carriage
returns and line feeds at its end, and is what the document has at the content range. -/
theorem lines_layout (text : List Char) :
    (lines text = [] ↔ text = []) ∧ Contiguous 0 (lines text) (Text.byteLength text) ∧
    ∀ before line after, lines text = before ++ line :: after →
      line.index = before.length ∧
      ∃ raw, line.LiesIn text raw ∧ (after ≠ [] → raw.getLast? = some '\n') :=
  ⟨lines_eq_nil_iff, contiguous_lines text, fun _ _ _ h => exists_liesIn h⟩

/-- Two returns in front of the first line feed, a line without text, and a last line that begins
with a return and does not end. -/
theorem lines_layout_creek :
    lines "Été\r\r\n\n\rlà".toList
      = [⟨0, ⟨0, 8⟩, "Été"⟩, ⟨1, ⟨8, 9⟩, ""⟩, ⟨2, ⟨9, 13⟩, "\rlà"⟩] ∧
    ∃ raw, SourceLine.LiesIn "Été\r\r\n\n\rlà".toList raw ⟨0, ⟨0, 8⟩, "Été"⟩ ∧
      raw.getLast? = some '\n' := by
  have hlines : lines "Été\r\r\n\n\rlà".toList
      = [⟨0, ⟨0, 8⟩, "Été"⟩, ⟨1, ⟨8, 9⟩, ""⟩, ⟨2, ⟨9, 13⟩, "\rlà"⟩] := by
    decide +kernel
  obtain ⟨-, -, hlies⟩ := lines_layout "Été\r\r\n\n\rlà".toList
  obtain ⟨-, raw, hraw, hend⟩ := hlies [] _ _ hlines
  exact ⟨hlines, raw, hraw, hend (List.cons_ne_nil _ _)⟩

end Document
end Comfort
