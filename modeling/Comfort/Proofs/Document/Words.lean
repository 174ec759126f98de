import Comfort.Proofs.Document.Splice
import Comfort.Proofs.Line.Order
import Comfort.Proofs.Pass.Inversion
import Comfort.Proofs.Pass.Reading
import Comfort.Proofs.Text.Groups
import Mathlib.Data.List.Pairwise

/-!
The words of a document.

Four kinds of lines have a text for the spelling check: the two descriptions, the headers of stages,
and the elements of stages.  The words of a document are those of these texts, in the order of the
lines, and none of them touches anything else that the lines are made of: `words_of_parse`.
-/

namespace Comfort

def Capture.words (c : Capture) : List Word :=
  Text.words c.range.start c.value.toList

/-- The one range ends where the other begins, or in front of it. -/
def TextRange.Apart (a b : TextRange) : Prop :=
  a.stop ≤ b.start ∨ b.stop ≤ a.start

namespace TextRange.Apart

variable {a b inner : TextRange}

theorem symm (h : Apart a b) : Apart b a :=
  Or.symm h

theorem of_contains (h : Apart a b) (hin : a.contains inner = true) : Apart inner b := by
  obtain ⟨hstart, hstop, -⟩ := contains_iff.1 hin
  unfold Apart at h ⊢
  omega

end TextRange.Apart

namespace LineMeaning

/-- The text that is checked for spelling.  An element has one in an open stage only. -/
def prose? (inStage : Bool) : LineMeaning → Option Capture
  | field f _ text => if f.isProse then some text else none
  | header name _ => some name
  | element _ text _ => if inStage then some text else none
  | _ => none

/-- Comments, names, speakers and ids. -/
def unspelled : LineMeaning → List Capture
  | comment text => [text]
  | field f _ text => if f.isProse then [] else [text]
  | header _ id => id.toList
  | element speaker _ id => speaker.toList ++ id.toList
  | _ => []

variable {m : LineMeaning} {inStage : Bool} {c : Capture}

theorem mem_captures_of_prose? (h : m.prose? inStage = some c) : c ∈ m.captures := by
  cases m with
  | field f label text =>
    rw [prose?, Option.ite_none_right_eq_some] at h
    rw [← Option.some.inj h.2]
    exact List.mem_cons_of_mem _ List.mem_cons_self
  | header name id =>
    rw [← Option.some.inj h]
    exact List.mem_cons_self
  | element speaker text id =>
    rw [prose?, Option.ite_none_right_eq_some] at h
    rw [← Option.some.inj h.2]
    exact List.mem_append_right _ List.mem_cons_self
  | _ => cases h

theorem mem_captures_of_unspelled (h : c ∈ m.unspelled) : c ∈ m.captures := by
  cases m with
  | comment text => exact h
  | field f label text =>
    rw [unspelled] at h
    split at h
    · cases h
    · exact List.mem_cons_of_mem _ h
  | header name id => exact List.mem_cons_of_mem _ h
  | element speaker text id =>
    rcases List.mem_append.1 h with h | h
    · exact List.mem_append_left _ h
    · exact List.mem_append_right _ (List.mem_cons_of_mem _ h)
  | _ => cases h

end LineMeaning

/-- What a line is made of apart from the text that is checked for spelling. -/
def SourceLine.unspelled (labels : GlobalLabels) (line : SourceLine) : List Capture :=
  ((LineForm.classify? labels line).bind LineForm.label?).toList ++ (line.meaning labels).unspelled

/-- The texts among lines that are checked for spelling. -/
def prose (ctx : ParseContext) (inStage : Bool) (lines : List SourceLine) : List Capture :=
  (ctx.staged inStage lines).filterMap fun (line, inStage) =>
    (line.meaning ctx.labels).prose? inStage

/-! ## One line -/

/-- The text of a form stands apart from the other captures. -/
theorem LineForm.Ordered.apart {form : LineForm} {c : Capture} (h : form.Ordered)
    (hc : c ∈ form.label?.toList ++ (form.speaker?.toList ++ form.id?.toList)) :
    TextRange.Apart form.text.range c.range := by
  rcases List.mem_append.1 hc with hc | hc
  · exact .inr (h.label c (Option.mem_toList.1 hc))
  · rcases List.mem_append.1 hc with hc | hc
    · exact .inr (h.speaker c (Option.mem_toList.1 hc))
    · exact .inl (h.id c (Option.mem_toList.1 hc))

namespace SourceLine

variable {labels : GlobalLabels} {line : SourceLine} {inStage : Bool} {text c : Capture}

theorem contains_of_prose? (h : (line.meaning labels).prose? inStage = some text) :
    line.contentRange.contains text.range = true :=
  (line.showsAll_meaning labels text (LineMeaning.mem_captures_of_prose? h)).contains_range

theorem contains_of_unspelled (h : c ∈ line.unspelled labels) :
    line.contentRange.contains c.range = true := by
  rcases List.mem_append.1 h with h | h
  · obtain ⟨form, hform, hlabel⟩ := Option.bind_eq_some_iff.1 (Option.mem_toList.1 h)
    have hcapture : c ∈ form.captures := by
      cases form with
      | label name text =>
        cases hlabel
        exact List.mem_cons_self
      | stage name text id =>
        cases hlabel
        exact List.mem_cons_self
      | _ => cases hlabel
    exact (LineForm.showsAll_of_classify? hform c hcapture).contains_range
  · exact (line.showsAll_meaning labels c (LineMeaning.mem_captures_of_unspelled h)).contains_range

/-- The words of a capture stand at its range. -/
theorem contains_of_mem_words {w : Word} (h : (line.meaning labels).prose? inStage = some text)
    (hw : w ∈ text.words) : text.range.contains w.range = true := by
  obtain ⟨t, -, hvalue, hrange⟩ :=
    line.showsAll_meaning labels text (LineMeaning.mem_captures_of_prose? h)
  have hw := (Text.shows_of_mem_words hw).contains_range
  have hspan : Span.range { start := text.range.start, chars := text.value.toList }
      = text.range := by
    rw [hvalue, hrange, Span.text, String.toList_ofList]
    rfl
  rwa [hspan] at hw

theorem apart_ofForm {form : LineForm} (hform : LineForm.classify? labels line = some form)
    (h : (LineMeaning.ofForm line form).prose? inStage = some text)
    (hc : c ∈ form.label?.toList ++ (LineMeaning.ofForm line form).unspelled) :
    TextRange.Apart text.range c.range := by
  have hordered := LineForm.ordered_of_classify? hform
  cases form with
  | comment comment => cases h
  | label label body =>
    rw [LineMeaning.ofForm] at h hc
    cases hf : Field.ofLabel? (lowercase label.value) with
    | some f =>
      rw [hf] at h hc
      rw [LineMeaning.prose?, Option.ite_none_right_eq_some] at h
      rw [LineMeaning.unspelled, if_pos h.1] at hc
      rw [← Option.some.inj h.2]
      exact hordered.apart hc
    | none =>
      rw [hf] at h hc
      dsimp only at h hc
      by_cases hk : lowercase label.value = LineForm.stageKey
      · -- The header is read again, with the same label.
        obtain ⟨name, id, hheader⟩ :=
          LineForm.stageHeader?_of_label (LineForm.configuredLabel?_of_classify? hform) hk
        rw [if_pos hk, hheader] at h hc
        rw [← Option.some.inj h]
        exact (LineForm.ordered_of_stageHeader? hheader).apart hc
      · rw [if_neg hk] at h
        cases h
  | stage label name id =>
    rw [← Option.some.inj h]
    exact hordered.apart hc
  | dialogue speaker body id =>
    rw [LineMeaning.ofForm, LineMeaning.prose?, Option.ite_none_right_eq_some] at h
    rw [← Option.some.inj h.2]
    exact hordered.apart hc
  | narration body id =>
    rw [LineMeaning.ofForm, LineMeaning.prose?, Option.ite_none_right_eq_some] at h
    rw [← Option.some.inj h.2]
    exact hordered.apart hc

/-- The text of a line that is checked for spelling stands apart from the rest. -/
theorem apart_of_prose? (h : (line.meaning labels).prose? inStage = some text)
    (hc : c ∈ line.unspelled labels) : TextRange.Apart text.range c.range := by
  unfold unspelled at hc
  unfold meaning at h hc
  split at h
  · cases h
  · next hblank =>
    cases hform : LineForm.classify? labels line with
    | none =>
      rw [hform] at h
      cases h
    | some form =>
      rw [hform] at h
      rw [if_neg hblank, hform] at hc
      exact apart_ofForm hform h hc

end SourceLine

/-! ## The pass -/

namespace Pass

variable {ctx : ParseContext} {p q : Pass} {line : SourceLine}

theorem words_diagnoseIf (p : Pass) (b : Prop) [Decidable b] (message : String)
    (range : TextRange) :
    (if b then p.diagnose message range else p).report.words = p.report.words := by
  split <;> rfl

theorem words_spell (hs : ctx.checkSpelling = true) (p : Pass) (c : Capture) :
    (p.spell ctx c).report.words = p.report.words ++ c.words := by
  rw [spell, Report.spell, if_pos hs]
  rfl

theorem words_setField (hs : ctx.checkSpelling = true) (p : Pass) (line : SourceLine)
    (field : Field) (label text : Capture) :
    (p.setField ctx line field label text).report.words
      = p.report.words ++ if field.isProse then text.words else [] := by
  unfold setField
  dsimp only [Report.addHover]
  split
  · rw [words_spell hs, words_diagnoseIf]
  · rw [words_diagnoseIf, List.append_nil]

theorem words_openStage (hs : ctx.checkSpelling = true) {name : Capture} {id : Option Capture}
    (h : p.openStage ctx line name id = .done q ()) :
    q.report.words = p.report.words ++ name.words := by
  unfold openStage at h
  obtain ⟨t, a, hclaim, h⟩ := Outcome.andThen_eq_done.1 h
  cases h
  show t.report.words = _
  rw [(claim_leaves hclaim).2, words_spell hs, words_diagnoseIf]

theorem words_addElement (hs : ctx.checkSpelling = true) {speaker : Option Capture}
    {text : Capture} {id : Option Capture}
    (h : p.addElement ctx line speaker text id = .done q ()) :
    q.report.words = p.report.words ++ text.words := by
  unfold addElement at h
  obtain ⟨t, a, hspeaker, h⟩ := Outcome.andThen_eq_done.1 h
  obtain ⟨u, b, hclaim, h⟩ := Outcome.andThen_eq_done.1 h
  cases h
  show u.report.words = _
  rw [(claim_leaves hclaim).2, words_diagnoseIf, (speaker_leaves hspeaker).2, words_spell hs]

/-- A line adds the words of its text that is checked for spelling, and no others. -/
theorem words_step (hs : ctx.checkSpelling = true) (h : p.step ctx line = .done q ()) :
    q.report.words = p.report.words
      ++ ((line.meaning ctx.labels).prose? p.inStage).toList.flatMap Capture.words := by
  unfold step at h
  cases hm : line.meaning ctx.labels with
  | blank =>
    rw [hm] at h
    cases h
    exact (List.append_nil _).symm
  | comment text =>
    rw [hm] at h
    dsimp only at h
    split at h <;> cases h <;> exact (List.append_nil _).symm
  | field field label text =>
    rw [hm] at h
    cases h
    rw [words_setField hs, LineMeaning.prose?]
    cases field.isProse with
    | true => exact congrArg (p.report.words ++ ·) (List.append_nil _).symm
    | false => rfl
  | header name id =>
    rw [hm] at h
    rw [words_openStage hs h, LineMeaning.prose?]
    exact congrArg (p.report.words ++ ·) (List.append_nil _).symm
  | element speaker text id =>
    rw [hm] at h
    dsimp only at h
    rw [LineMeaning.prose?]
    cases hin : p.inStage with
    | true =>
      rw [if_pos hin] at h
      rw [words_addElement hs h, if_pos rfl]
      exact congrArg (p.report.words ++ ·) (List.append_nil _).symm
    | false =>
      rw [hin] at h
      cases h
      exact (List.append_nil _).symm
  | other =>
    rw [hm] at h
    cases h
    exact (List.append_nil _).symm

theorem words_run (hs : ctx.checkSpelling = true) {lines : List SourceLine}
    (h : p.run ctx lines = .done q ()) :
    q.report.words = p.report.words ++ (prose ctx p.inStage lines).flatMap Capture.words := by
  induction lines generalizing p with
  | nil =>
    cases h
    exact (List.append_nil _).symm
  | cons line rest ih =>
    obtain ⟨t, _, ht, h⟩ := Outcome.andThen_eq_done.1 h
    have hcut : prose ctx p.inStage (line :: rest)
        = ((line.meaning ctx.labels).prose? p.inStage).toList ++ prose ctx t.inStage rest :=
      filterMap_staged_cons _ rest ht
    rw [ih h, words_step hs ht, hcut, List.flatMap_append, List.append_assoc]

end Pass

/-! ## Documents -/

theorem mem_of_mem_staged {ctx : ParseContext} {inStage : Bool} {lines : List SourceLine}
    {e : SourceLine × Bool} (h : e ∈ ctx.staged inStage lines) : e.1 ∈ lines := by
  induction lines generalizing inStage with
  | nil => cases h
  | cons line rest ih =>
    rcases List.mem_cons.1 h with rfl | h
    · exact List.mem_cons_self
    · exact List.mem_cons_of_mem _ (ih h)

namespace Document

/-- A line ends in front of the next one. -/
theorem ordered_locate (index start : Nat) (raws : List (List Char)) :
    (locate index start raws).Pairwise fun a b => a.contentRange.stop ≤ b.contentRange.start := by
  induction raws generalizing index start with
  | nil => exact .nil
  | cons raw rest ih =>
    rw [locate_cons]
    refine List.pairwise_cons.2 ⟨fun line hl => ?_, ih _ _⟩
    have hstart := start_le_of_mem_locate hl
    have hlength := byteLength_dropEndWhile_le isTerminator raw
    rw [stop_contentRange_lineAt]
    omega

/-- Two lines of a document are one, or their contents stand apart. -/
theorem apart_of_mem_lines {text : List Char} {a b : SourceLine} (ha : a ∈ lines text)
    (hb : b ∈ lines text) (hne : a ≠ b) : TextRange.Apart a.contentRange b.contentRange := by
  have hordered : (lines text).Pairwise fun a b => TextRange.Apart a.contentRange b.contentRange :=
    (ordered_locate 0 0 (rawLines text)).imp fun h => .inl h
  have hsymm : Std.Symm fun a b : SourceLine => TextRange.Apart a.contentRange b.contentRange :=
    ⟨fun _ _ h => h.symm⟩
  exact hordered.forall ha hb hne

/-- Words are the groups of letters of more than one character, and the words of a document are
those of the texts that are checked for spelling, in the order of the lines.  None of them is taken
from a comment, a label, a name, a speaker or an id. -/
theorem words_of_parse (text : String) (store : Store) (options : ParseOptions) :
    (∀ base cs, ∃ groups, Text.WordsOf base cs groups (Text.words base cs)) ∧
    ∀ report, options.checkSpelling = true → parse text store options = .ok report →
      report.words
        = (prose (.ofStore store options) false (lines text.toList)).flatMap Capture.words ∧
      ∀ line ∈ lines text.toList, ∀ c ∈ line.unspelled options.labels, ∀ w ∈ report.words,
        TextRange.Apart w.range c.range := by
  refine ⟨Text.wordsOf_words, fun report hs h => ?_⟩
  obtain ⟨p, hp, rfl⟩ := run_of_parse h
  have hwords : p.report.words
      = (prose (.ofStore store options) false (lines text.toList)).flatMap Capture.words :=
    Pass.words_run hs hp
  refine ⟨hwords, fun line hline c hc w hw => ?_⟩
  rw [hwords] at hw
  obtain ⟨body, hbody, hw⟩ := List.mem_flatMap.1 hw
  obtain ⟨⟨other, inStage⟩, hother, hprose⟩ := List.mem_filterMap.1 hbody
  refine TextRange.Apart.of_contains ?_ (SourceLine.contains_of_mem_words hprose hw)
  by_cases heq : other = line
  · rw [← heq] at hc
    exact SourceLine.apart_of_prose? hprose hc
  · have hlines := apart_of_mem_lines (mem_of_mem_staged hother) hline heq
    have hbody := hlines.of_contains (SourceLine.contains_of_prose? hprose)
    exact (hbody.symm.of_contains (SourceLine.contains_of_unspelled hc)).symm

/-- A name, a description with a word of one letter, and a stage with ids. -/
def orchardText : String :=
  "Name: Ann\nDescription: it's a pear\nStage: One day #s1\nNora: don't #e1\n"

theorem parse_orchardText :
    (parse orchardText {} {}).map (fun r => r.words.map Word.text)
      = .ok ["it's", "pear", "One", "day", "don't"] := by
  rw [parse, parseIn_eq_run]
  decide +kernel

/-- The range is that of the first id. -/
theorem words_of_parse_orchard :
    ∃ report, parse orchardText {} {} = .ok report ∧
      ((prose (.ofStore {} {}) false (lines orchardText.toList)).flatMap Capture.words).map
        Word.text = ["it's", "pear", "One", "day", "don't"] ∧
      ∀ w ∈ report.words, TextRange.Apart w.range ⟨51, 53⟩ := by
  obtain ⟨report, hparse, htexts⟩ := exists_of_parse_map parse_orchardText
  obtain ⟨hwords, hapart⟩ := (words_of_parse orchardText {} {}).2 report rfl hparse
  have hid : ∃ line ∈ lines orchardText.toList,
      (⟨"s1", ⟨51, 53⟩⟩ : Capture) ∈ line.unspelled ({} : ParseOptions).labels := by
    decide +kernel
  obtain ⟨line, hline, hid⟩ := hid
  rw [hwords] at htexts
  exact ⟨report, hparse, htexts, hapart line hline _ hid⟩

end Document
end Comfort
