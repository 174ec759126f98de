import Comfort.Proofs.Pass.Anchored
import Comfort.Proofs.Pass.Reading
import Comfort.Report.Check

/-!
Where the notes of a report stand in its document.

A document holds its lines, so a note in the text of a line lies in the document, and a word that is
shown by its line is what the document has at its range.  That is all that a check of a report asks
for: no report of a reading is refused by the check, which `check_of_parse` says together with what
the check stands for.
-/

namespace Comfort
namespace Document

/-- The whole text, as a span. -/
def span (text : List Char) : Span :=
  { start := 0, chars := text }

theorem holds_locate {text : List Char} (before : List Char) {index : Nat}
    {raws : List (List Char)} (h : text = before ++ raws.flatten) {line : SourceLine}
    (hl : line ∈ locate index (Text.byteLength before) raws) : (span text).Holds line.span := by
  induction raws generalizing before index with
  | nil => cases hl
  | cons raw rest ih =>
    rw [List.flatten_cons] at h
    rcases List.mem_cons.1 hl with rfl | hl
    · obtain ⟨terminator, hraw⟩ :
          ∃ terminator, Text.dropEndWhile isTerminator raw ++ terminator = raw :=
        List.rdropWhile_prefix isTerminator raw
      refine ⟨before, terminator ++ rest.flatten, ?_, ?_⟩
      · show text = before ++ ((String.ofList (Text.dropEndWhile isTerminator raw)).toList ++ _)
        rw [String.toList_ofList, ← List.append_assoc _ terminator, hraw, h]
      · show Text.byteLength before = 0 + Text.byteLength before
        omega
    · rw [← Text.byteLength_append] at hl
      have htail : text = (before ++ raw) ++ rest.flatten := by rw [h, List.append_assoc]
      exact ih (before ++ raw) htail hl

theorem holds_of_mem_lines {text : List Char} {line : SourceLine} (h : line ∈ lines text) :
    (span text).Holds line.span :=
  holds_locate [] (flatten_rawLines text).symm h

end Document

namespace Text

theorem isBoundary_append (a b : List Char) : isBoundary (byteLength a) (a ++ b) = true := by
  rw [isBoundary, takeBytes_byteLength_append]
  exact beq_self_eq_true _

end Text

namespace Report

variable {r : Report} {text : List Char}

theorem forM_eq_ok {ε α : Type} {f : α → Except ε Unit} (items : List α)
    (h : ∀ a ∈ items, f a = .ok ()) : items.forM f = .ok () := by
  induction items with
  | nil => rfl
  | cons a rest ih =>
    have hrest := ih fun b hb => h b (List.mem_cons_of_mem _ hb)
    show (f a).bind (fun _ => rest.forM f) = .ok ()
    rw [h a List.mem_cons_self]
    exact hrest

/-- Every range of an anchored report is one of a note that stands in a line. -/
theorem Anchored.inALine {lines : List SourceLine} (h : r.Anchored lines)
    {e : String × TextRange} (he : e ∈ r.ranges) : InALine lines e.2 := by
  simp only [ranges, List.mem_append, List.mem_map] at he
  rcases he with (((⟨d, hd, rfl⟩ | ⟨d, hd, rfl⟩) | ⟨d, hd, rfl⟩) | ⟨w, hw, rfl⟩) | ⟨d, hd, rfl⟩
  · exact h.diagnostics d hd
  · exact h.hovers d hd
  · exact h.completions d hd
  · obtain ⟨line, hl, hshows⟩ := h.words w hw
    exact inALine_of_shows hl hshows
  · exact h.edits d hd

/-- A range in a line of the document, checked. -/
theorem checkRange_of_inALine {range : TextRange} (h : InALine (Document.lines text) range)
    (what : String) :
    range.start ≤ range.stop ∧ range.stop ≤ Text.byteLength text ∧
    checkRange (Text.byteLength text) ((Document.lines text).map SourceLine.contentRange) what range
      = .ok () := by
  obtain ⟨line, hl, hcontains⟩ := h
  obtain ⟨-, hstop, horder⟩ := TextRange.contains_iff.1 hcontains
  have hline := TextRange.contains_iff.1 (Document.holds_of_mem_lines hl).contains_range
  have hlength : (Document.span text).range.stop = Text.byteLength text := Nat.zero_add _
  have hbound : range.stop ≤ Text.byteLength text := by
    rw [← hlength]
    exact Nat.le_trans hstop hline.2.1
  have hany : ((Document.lines text).map SourceLine.contentRange).any (·.contains range) = true :=
    List.any_eq_true.2 ⟨line.contentRange, List.mem_map_of_mem hl, hcontains⟩
  refine ⟨horder, hbound, ?_⟩
  unfold checkRange
  rw [if_neg (by simp [horder, hbound]), if_neg (by simp [hany])]

/-- The text that is shown at a range is what the document has there. -/
theorem checkWord_of_shows {w : Word} (h : (Document.span text).Shows w.text w.range) :
    (∃ before after, text = before ++ (w.text.toList ++ after) ∧
      w.range = ⟨Text.byteLength before, Text.byteLength before + Text.byteLength w.text.toList⟩) ∧
    checkWord text w = .ok () := by
  obtain ⟨t, ⟨before, after, hchars, hstart⟩, htext, hrange⟩ := h
  have hword : w.text.toList = t.chars := by
    rw [htext, Span.text, String.toList_ofList]
  have hdoc : text = before ++ (w.text.toList ++ after) := by
    rw [hword]
    exact hchars
  have hbegin : t.start = Text.byteLength before := hstart.trans (Nat.zero_add _)
  have hplace : w.range
      = ⟨Text.byteLength before, Text.byteLength before + Text.byteLength w.text.toList⟩ := by
    rw [hrange, Span.range, hbegin, hword]
  refine ⟨⟨before, after, hdoc, hplace⟩, ?_⟩
  have hleft : Text.isBoundary w.range.start text = true := by
    rw [hplace, hdoc]
    exact Text.isBoundary_append before _
  have hright : Text.isBoundary w.range.stop text = true := by
    rw [hplace, hdoc, ← List.append_assoc]
    dsimp only
    rw [← Text.byteLength_append]
    exact Text.isBoundary_append _ after
  have hslice : w.range.slice text = w.text.toList := by
    rw [hplace]
    conv_lhs => rw [hdoc]
    exact TextRange.slice_append before w.text.toList after
  unfold checkWord checkBoundary
  rw [if_pos hleft, if_pos hright, if_pos hslice]
  rfl

end Report

namespace Document

/-- The report of a reading passes the check: each of its ranges lies in the text of one line, and
each word is what stands at its range. -/
theorem check_of_parse {text : String} {store : Store} {options : ParseOptions} {report : Report}
    (h : parse text store options = .ok report) :
    report.check text.toList = .ok () ∧
    (∀ e ∈ report.ranges, e.2.start ≤ e.2.stop ∧ e.2.stop ≤ Text.byteLength text.toList ∧
      ∃ line ∈ lines text.toList, line.contentRange.contains e.2 = true) ∧
    ∀ w ∈ report.words, ∃ before after, text.toList = before ++ (w.text.toList ++ after) ∧
      w.range
        = ⟨Text.byteLength before, Text.byteLength before + Text.byteLength w.text.toList⟩ := by
  obtain ⟨p, hp, rfl⟩ := run_of_parse h
  have hanchored : p.report.Anchored (lines text.toList) :=
    Pass.anchored_run (Report.anchored_empty _) (fun _ hl => hl) hp
  have hshown : ∀ w ∈ p.report.words, (span text.toList).Shows w.text w.range := by
    intro w hw
    obtain ⟨line, hl, hshows⟩ := hanchored.words w hw
    exact hshows.of_holds (holds_of_mem_lines hl)
  refine ⟨?_, ?_, fun w hw => (Report.checkWord_of_shows (hshown w hw)).1⟩
  · have hranges := Report.forM_eq_ok p.report.ranges fun e he =>
      (Report.checkRange_of_inALine (hanchored.inALine he) e.1).2.2
    have hwords := Report.forM_eq_ok p.report.words fun w hw =>
      (Report.checkWord_of_shows (hshown w hw)).2
    unfold Report.check
    dsimp only
    rw [hranges]
    exact hwords
  · intro e he
    have hline := hanchored.inALine he
    obtain ⟨horder, hbound, -⟩ := Report.checkRange_of_inALine hline e.1
    exact ⟨horder, hbound, hline⟩

/-- Letters of several bytes in lines that end in two characters, and a last line without an end. -/
def coastText : String := "Description: Été, l’eau\r\n> là\r\nStage: Ön #s1"

def coastDiagnostics : List Diagnostic := [⟨"Unfamiliar syntax: > là", ⟨29, 34⟩⟩]

theorem parse_coastText :
    (parse coastText {} {}).map Report.diagnostics = .ok coastDiagnostics := by
  rw [parse, parseIn_eq_run]
  decide +kernel

theorem check_of_parse_coast :
    ∃ report, parse coastText {} {} = .ok report ∧ report.diagnostics = coastDiagnostics ∧
      report.check coastText.toList = .ok () ∧
      ∃ line ∈ lines coastText.toList, line.contentRange.contains ⟨29, 34⟩ = true := by
  have hparse := parse_coastText
  cases hr : parse coastText {} {} with
  | error e =>
    rw [hr] at hparse
    cases hparse
  | ok report =>
    rw [hr] at hparse
    have hdiagnostics : report.diagnostics = coastDiagnostics := Except.ok.inj hparse
    obtain ⟨hcheck, hranges, -⟩ := check_of_parse hr
    have hmem : ("diagnostic", (⟨29, 34⟩ : TextRange)) ∈ report.ranges := by
      simp [Report.ranges, hdiagnostics, coastDiagnostics]
    exact ⟨report, rfl, hdiagnostics, hcheck, (hranges _ hmem).2.2⟩

end Document
end Comfort
