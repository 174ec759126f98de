import Comfort.Proofs.Line.Productions

/-!
Names that can be written as a speaker.

A dialogue has its speaker in front of its first colon.  A name can be written there when it is made
of the characters of a speaker, ends in no blank, and is read neither as a label nor as the word
that opens a stage.  A dialogue that is renamed to such a name is a dialogue of this speaker, with
the text and the id that it had: `meaning_renamed`.
-/

namespace Comfort

open Text (leading trailing trim trimStart trimEnd)

/-- A name that is read as a speaker in front of a colon. -/
structure Speakable (labels : GlobalLabels) (name : String) : Prop where
  speaker : IsSpeaker name.toList
  trimmed : trimEnd name.toList = name.toList
  label : ¬ IsLabel labels name.toList
  stage : ¬ IsStage name.toList

/-- The test for it, made of those of the line grammar. -/
theorem speakable_iff {labels : GlobalLabels} {name : String} :
    Speakable labels name ↔ LineForm.isHeading LineForm.isSpeakerChar name.toList = true ∧
      trimEnd name.toList = name.toList ∧
      (LineForm.isHeading LineForm.isLabelChar name.toList && labels.contains name) = false ∧
      LineForm.isStageWord name.toList = false := by
  have hlabel (h : trimEnd name.toList = name.toList) :
      (LineForm.isHeading LineForm.isLabelChar name.toList && labels.contains name) = true ↔
        IsLabel labels name.toList := by
    have hiff := @isLabel_iff labels name.toList
    rw [h, String.ofList_toList] at hiff
    exact hiff
  constructor
  · intro h
    refine ⟨(isHeading_iff isSpeakerChar_iff).2 h.speaker, h.trimmed, ?_, ?_⟩
    · exact Bool.eq_false_iff.2 fun hl => h.label ((hlabel h.trimmed).1 hl)
    · exact Bool.eq_false_iff.2 fun hs => h.stage (isStage_iff.1 hs)
  · intro ⟨hspeaker, htrimmed, hl, hs⟩
    refine ⟨(isHeading_iff isSpeakerChar_iff).1 hspeaker, htrimmed, fun h => ?_, fun h => ?_⟩
    · rw [(hlabel htrimmed).2 h] at hl
      cases hl
    · rw [isStage_iff.2 h] at hs
      cases hs

instance (labels : GlobalLabels) (name : String) : Decidable (Speakable labels name) :=
  decidable_of_iff _ speakable_iff.symm

/-- The text of a line with another name in front of its first colon.  The blanks around it stay. -/
def SourceLine.renamedText (line : SourceLine) (before after : List Char) (name : String) :
    List Char :=
  leading line.text.toList ++ (name.toList ++ (trailing before ++ ':' :: after))

variable {labels : GlobalLabels} {line line' : SourceLine} {before after : List Char}
  {name : String} {c text : Capture} {id : Option Capture}

/-! ## Lines with a heading -/

theorem Headed.text_eq (h : Headed line before after) :
    line.text.toList
      = leading line.text.toList ++ (trimEnd before ++ (trailing before ++ ':' :: after)) := by
  have hsplit := Text.leading_append_trimStart line.text.toList
  rw [h.eq] at hsplit
  rw [← List.append_assoc (trimEnd before), Text.trimEnd_append_trailing, hsplit]

theorem Headed.isBlank (h : Headed line before after) : line.isBlank = false := by
  cases hblank : line.isBlank with
  | false => rfl
  | true =>
    have hnil : trimStart line.text.toList = [] :=
      Text.trimStart_of_blank (List.all_eq_true.1 hblank)
    rw [h.eq] at hnil
    exact absurd hnil (by simp)

/-- A dialogue, taken apart. -/
theorem production_of_element (hn : '\n' ∉ line.text.toList)
    (h : line.meaning labels = .element (some c) text id) :
    Production labels line (.dialogue c text id) := by
  rw [← LineForm.classify?_eq_some hn]
  unfold SourceLine.meaning at h
  split at h
  · cases h
  · split at h
    · next form hform =>
      rw [hform]
      cases form with
      | comment text => cases h
      | stage label name id => cases h
      | narration text id => cases h
      | dialogue speaker text id =>
        cases h
        rfl
      | label label text =>
        simp only [LineMeaning.ofForm] at h
        split at h
        · cases h
        · split at h
          · cases hs : LineForm.stageHeader? line.span <;> rw [hs] at h <;> cases h
          · cases h
    · cases h

/-! ## Renamed lines -/

namespace Speakable

theorem not_mem (h : Speakable labels name) {d : Char} (hd : LineForm.isSpeakerChar d = false) :
    d ∉ name.toList := by
  intro hmem
  have hchar := (isSpeakerChar_iff d).2 (h.speaker.chars d hmem)
  rw [hd] at hchar
  cases hchar

theorem solid (h : Speakable labels name) : Text.Solid name.toList := by
  obtain ⟨d, hd, halpha⟩ := h.speaker.letter
  rw [← h.trimmed]
  refine Text.solid_trimEnd ?_
  cases hblank : Text.allBlank name.toList with
  | false => rfl
  | true =>
    have hall := List.all_eq_true.1 hblank d (List.mem_of_head? hd)
    rw [isBlank_of_isAlpha halpha] at hall
    cases hall

theorem trimEnd_append_trailing (h : Speakable labels name) (before : List Char) :
    trimEnd (name.toList ++ trailing before) = name.toList := by
  rw [Text.trimEnd_append_of_blank fun _ hd => Text.isBlank_of_mem_trailing hd]
  exact h.trimmed

end Speakable

theorem headed_renamed (hname : Speakable labels name)
    (ht : line'.text.toList = line.renamedText before after name) :
    Headed line' (name.toList ++ trailing before) after := by
  constructor
  · have hblank : ∀ d ∈ leading line.text.toList, Text.isBlank d = true :=
      fun _ hd => List.mem_takeWhile_imp hd
    have hstart : trimStart name.toList = name.toList := hname.speaker.trimStart
    rw [ht, SourceLine.renamedText, trimStart, List.dropWhile_append_of_pos hblank, ← trimStart,
      Text.trimStart_append_of_solid hname.solid, hstart, List.append_assoc]
  · intro hcolon
    rcases List.mem_append.1 hcolon with hmem | hmem
    · exact hname.not_mem (by decide) hmem
    · have hblank := Text.isBlank_of_mem_trailing hmem
      cases hblank

/-- A dialogue that is renamed is a dialogue of the new speaker. -/
theorem meaning_renamed (hn : '\n' ∉ line.text.toList) (hname : Speakable labels name)
    (hm : line.meaning labels = .element (some c) text id) :
    ∃ before after, Headed line before after ∧ c = line.cutHead before ∧
      ∀ line' : SourceLine, line'.text.toList = line.renamedText before after name →
        LineMeaning.SameText (.element (some { c with value := name }) text id)
          (line'.meaning labels) := by
  cases production_of_element hn hm with
  | @dialogue before after piece found hline hlabel hstage hhead hid =>
    refine ⟨before, after, hline, rfl, fun line' ht => ?_⟩
    have hline' := headed_renamed hname ht
    have hhead' := hname.trimEnd_append_trailing before
    have hn' : '\n' ∉ line'.text.toList := by
      rw [hline.text_eq] at hn
      rw [ht, SourceLine.renamedText]
      simp only [List.mem_append, not_or] at hn ⊢
      exact ⟨hn.1, hname.not_mem (by decide), hn.2.2⟩
    have hform : Production labels line' _ :=
      .dialogue hline' (by rw [hhead']; exact hname.label) (by rw [hhead']; exact hname.stage)
        (by rw [hhead']; exact hname.speaker) hid
    have hnotBlank : ¬ line'.isBlank = true := by
      rw [hline'.isBlank]
      exact Bool.false_ne_true
    have hclassified := (LineForm.classify?_eq_some hn').2 hform
    rw [SourceLine.meaning, if_neg hnotBlank, hclassified]
    refine .element (congrArg some ?_) rfl ?_
    · show String.ofList (trimEnd (name.toList ++ trailing before)) = name
      rw [hhead', String.ofList_toList]
    · cases found <;> rfl

end Comfort
