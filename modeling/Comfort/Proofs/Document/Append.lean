import Comfort.Proofs.Document.Splice
import Comfort.Proofs.Pass.Extension
import Comfort.Proofs.Pass.Reading

/-!
Texts that go on.

A text that is put behind whole lines adds lines to theirs, and the reading of the first lines does
not look ahead to the others.  So what a document has said up to the end of a line stays as it is
when text is added: `parse_append`.
-/

namespace Comfort
namespace Document

/-- A text of whole lines: it is empty, or it ends in a line feed. -/
def EndsLine (text : List Char) : Prop :=
  text = [] ∨ text.getLast? = some '\n'

theorem EndsLine.tail {c : Char} {cs : List Char} (h : EndsLine (c :: cs)) : EndsLine cs := by
  cases cs with
  | nil => exact .inl rfl
  | cons d cs =>
    rcases h with h | h
    · cases h
    · exact .inr (by rwa [List.getLast?_cons_cons] at h)

/-- The cut of whole lines ends where their text does. -/
theorem rawLines_append {a : List Char} (h : EndsLine a) (b : List Char) :
    rawLines (a ++ b) = rawLines a ++ rawLines b := by
  induction a with
  | nil => rfl
  | cons c cs ih =>
    rw [List.cons_append, rawLines, rawLines, ih h.tail]
    split
    · rfl
    · next hc =>
      cases hr : rawLines cs with
      | nil =>
        -- nothing follows, so the text would have to end in the character that is no line feed
        have hnil : cs = [] := by
          rw [← flatten_rawLines cs, hr]
          rfl
        rw [hnil] at h
        rcases h with h | h
        · cases h
        · exact absurd (Option.some.inj h) hc
      | cons line rest => rfl

/-- The lines of a text come first when it goes on behind a whole line. -/
theorem lines_append {a : List Char} (h : EndsLine a) (b : List Char) :
    ∃ more, lines (a ++ b) = lines a ++ more := by
  rw [lines, rawLines_append h, locate_append]
  exact ⟨_, rfl⟩

/-- Text that is added behind whole lines leaves what was reported of them.  They are read without
fault if the whole text is, and all that is reported of them comes first in the report of the whole:
the notes, the comments and the stages, of which only the last one may gain elements. -/
theorem parse_append {first more : String} {store : Store} {options : ParseOptions}
    {report : Report} (hends : EndsLine first.toList)
    (h : parse (first ++ more) store options = .ok report) :
    ∃ earlier, parse first store options = .ok earlier ∧ earlier.Extends report := by
  obtain ⟨q, hq, rfl⟩ := run_of_parse h
  obtain ⟨rest, hrest⟩ := lines_append hends more.toList
  rw [String.toList_append, hrest, Pass.run_append] at hq
  obtain ⟨p, _, hp, hq⟩ := Outcome.andThen_eq_done.1 hq
  refine ⟨p.report, ?_, Pass.extends_run (Report.extends_refl p.report) hq⟩
  rw [parse, parseIn_eq_run, hp]
  rfl

/-- A stage with one element, cut in its body. -/
def meadowText : String := "Stage: One #s1\nNora: hi #e1\n"

/-- An element for the open stage, and an empty name. -/
def meadowRest : String := "> Wind. #e2\nName:\n"

theorem parse_meadowText :
    (parse (meadowText ++ meadowRest) {} {}).map
        (fun r => r.record.stages.map fun s => s.elements.map StageElement.text)
      = .ok [["hi", "Wind."]] := by
  rw [parse, parseIn_eq_run]
  rfl

theorem parse_append_meadow :
    ∃ report earlier, parse (meadowText ++ meadowRest) {} {} = .ok report ∧
      report.record.stages.map (fun s => s.elements.map StageElement.text) = [["hi", "Wind."]] ∧
      parse meadowText {} {} = .ok earlier ∧ earlier.Extends report := by
  obtain ⟨report, hreport, htexts⟩ := exists_of_parse_map parse_meadowText
  obtain ⟨earlier, hearlier, hextends⟩ := parse_append (.inr rfl) hreport
  exact ⟨report, earlier, hreport, htexts, hearlier, hextends⟩

end Document
end Comfort
