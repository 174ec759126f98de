import Comfort.Proofs.Document.Ranges
import Comfort.Proofs.Document.Splice
import Comfort.Proofs.Pass.Relocation

/-!
Line ends of two characters.

With a carriage return in front of every line feed a document has the same lines, each of them moved
by as many bytes as there are lines in front of it.  So it is read as before, and what is reported on
a line is moved by the number of the line: `parse_withReturns`.
-/

namespace Comfort

/-- The text with a carriage return in front of every line feed. -/
def Text.withReturns (cs : List Char) : List Char :=
  cs.flatMap fun c => if c = '\n' then ['\r', '\n'] else [c]

namespace Text

theorem withReturns_append (a b : List Char) :
    withReturns (a ++ b) = withReturns a ++ withReturns b :=
  List.flatMap_append

theorem withReturns_of_not_mem {cs : List Char} (h : '\n' ∉ cs) : withReturns cs = cs := by
  induction cs with
  | nil => rfl
  | cons c cs ih =>
    have hc : c ≠ '\n' := fun hc => h (hc ▸ List.mem_cons_self)
    have hrest := ih fun hm => h (List.mem_cons_of_mem c hm)
    rw [withReturns] at hrest ⊢
    rw [List.flatMap_cons, if_neg hc, hrest]
    rfl

theorem withReturns_flatten (raws : List (List Char)) :
    withReturns raws.flatten = (raws.map withReturns).flatten := by
  induction raws with
  | nil => rfl
  | cons raw rest ih => rw [List.flatten_cons, withReturns_append, ih, List.map_cons, List.flatten_cons]

end Text

namespace Document

open Text (withReturns)

variable {body raw : List Char} {raws : List (List Char)} {text : List Char}

/-! ## Lines -/

theorem withReturns_line (hn : '\n' ∉ body) :
    withReturns (body ++ ['\n']) = body ++ ['\r'] ++ ['\n'] := by
  rw [Text.withReturns_append, Text.withReturns_of_not_mem hn, List.append_assoc]
  rfl

theorem Cut.withReturns (h : Cut raws) : Cut (raws.map Text.withReturns) := by
  induction h with
  | nil => exact .nil
  | last hne hn =>
    rw [List.map_singleton, Text.withReturns_of_not_mem hn]
    exact .last hne hn
  | cons hn _ ih =>
    rw [List.map_cons, withReturns_line hn]
    refine .cons ?_ ih
    rw [List.mem_append]
    exact fun hm => hm.elim hn (by decide)

theorem rawLines_withReturns (text : List Char) :
    rawLines (withReturns text) = (rawLines text).map withReturns := by
  have h := rawLines_flatten (cut_rawLines text).withReturns
  rwa [← Text.withReturns_flatten, flatten_rawLines] at h

/-- What a line says does not depend on how it ends. -/
theorem dropTerminator_withReturns (hn : '\n' ∉ body) :
    Text.dropEndWhile isTerminator (withReturns (body ++ ['\n']))
      = Text.dropEndWhile isTerminator (body ++ ['\n']) := by
  have hfeed : isTerminator '\n' = true := rfl
  have hreturn : isTerminator '\r' = true := rfl
  rw [withReturns_line hn, Text.dropEndWhile_append_singleton, Text.dropEndWhile_append_singleton,
    Text.dropEndWhile_append_singleton, if_pos hfeed, if_pos hreturn, if_pos hfeed]

/-- Each line is moved by the number that it has. -/
theorem locate_withReturns {f : TextRange → TextRange} (h : Cut raws) {index start : Nat}
    (hf : ∀ line ∈ locate index start raws, ∀ range, line.contentRange.contains range = true →
      f range = range.shift line.index) :
    List.Forall₂ (fun line line' => ∃ n, line.Moved f n line') (locate index start raws)
      (locate index (start + index) (raws.map withReturns)) := by
  induction h generalizing index start with
  | nil => exact .nil
  | last hne hn =>
    rw [List.map_singleton, Text.withReturns_of_not_mem hn]
    exact .cons ⟨index, rfl, rfl, rfl, hf _ List.mem_cons_self⟩ .nil
  | @cons body rest hn _ ih =>
    have hstart : start + index + Text.byteLength (withReturns (body ++ ['\n']))
        = start + Text.byteLength (body ++ ['\n']) + (index + 1) := by
      have hreturn : Text.byteLength ['\r'] = 1 := rfl
      rw [withReturns_line hn]
      simp only [Text.byteLength_append, hreturn]
      omega
    rw [List.map_cons, locate_cons, locate_cons, hstart]
    refine .cons ⟨index, rfl, ?_, rfl, hf _ List.mem_cons_self⟩ ?_
    · exact congrArg String.ofList (dropTerminator_withReturns hn)
    · exact ih fun line hl => hf line (List.mem_cons_of_mem _ hl)

/-! ## Ranges -/

/-- A range moved by the number of the line in which it stands. -/
def movedByLine (text : List Char) (range : TextRange) : TextRange :=
  match (lines text).find? fun line => line.contentRange.contains range with
  | some line => range.shift line.index
  | none => range

/-- No range stands in two lines. -/
theorem eq_of_contains {line line' : SourceLine} {range : TextRange} (hl : line ∈ lines text)
    (hl' : line' ∈ lines text) (h : line.contentRange.contains range = true)
    (h' : line'.contentRange.contains range = true) : line' = line := by
  obtain ⟨before, after, hlines⟩ := List.append_of_mem hl
  obtain ⟨a, raw, b, hraws, rfl, rfl⟩ := exists_raw_of_lines hlines
  have hcut : Cut (a ++ raw :: b) := by
    rw [← hraws]
    exact cut_rawLines text
  rw [lines, hraws, locate_append, locate_cons, Nat.zero_add, Nat.zero_add, List.mem_append,
    List.mem_cons, or_left_comm, ← List.mem_append] at hl'
  refine hl'.resolve_right fun hother => ?_
  rw [not_contains_of_inALine hcut ⟨line', hother, h'⟩] at h
  cases h

theorem movedByLine_of_contains {line : SourceLine} {range : TextRange} (hl : line ∈ lines text)
    (h : line.contentRange.contains range = true) :
    movedByLine text range = range.shift line.index := by
  unfold movedByLine
  cases hfind : (lines text).find? fun line => line.contentRange.contains range with
  | none =>
    have hnone := List.find?_eq_none.1 hfind line hl
    exact absurd h hnone
  | some found =>
    have hcontains : found.contentRange.contains range = true :=
      List.find?_some (p := fun line : SourceLine => line.contentRange.contains range) hfind
    rw [eq_of_contains hl (List.mem_of_find?_eq_some hfind) h hcontains]

/-! ## Readings -/

/-- A text with a carriage return in front of every line feed is read as the text is.  A failure is
the same, and so is the report but for its ranges: each of them stands in the text of one line, and
is moved by as many bytes as there are lines in front of that line. -/
theorem parse_withReturns (text : String) (store : Store) (options : ParseOptions) :
    parse (String.ofList (withReturns text.toList)) store options
        = (parse text store options).map (Report.relocate (movedByLine text.toList)) ∧
      (∀ line ∈ lines text.toList, ∀ range, line.contentRange.contains range = true →
        movedByLine text.toList range = range.shift line.index) ∧
      ∀ report, parse text store options = .ok report → ∀ e ∈ report.ranges,
        ∃ line ∈ lines text.toList, line.contentRange.contains e.2 = true := by
  have hmoved : ∀ line ∈ lines text.toList, ∀ range, line.contentRange.contains range = true →
      movedByLine text.toList range = range.shift line.index :=
    fun line hl range h => movedByLine_of_contains hl h
  refine ⟨?_, hmoved, fun report h e he => ?_⟩
  · have hlines := locate_withReturns (cut_rawLines text.toList) hmoved
    have hrun := Pass.run_moved (.ofStore store options) hlines {}
    rw [parse, parse, parseIn_eq_run, parseIn_eq_run, String.toList_ofList, lines,
      rawLines_withReturns, ← Pass.result_mapState, lines]
    exact congrArg Pass.result hrun
  · obtain ⟨p, hp, rfl⟩ := run_of_parse h
    have hempty := Report.anchored_empty (lines text.toList)
    exact (Pass.anchored_run hempty (fun _ hl => hl) hp).inALine he

end Document
end Comfort
