import Comfort.Proofs.Document.Splice
import Comfort.Proofs.Line.Speakable
import Comfort.Proofs.Pass.Reading

/-!
Stage headers under a configured label.

Where the word of a stage header is a configured label, a header is read as a label first and then
again as a header; where it is none, it is read as a header at once.  The line means the same either
way, because a label in lower case that is `stage` is the word `stage` in some case.  So whether the
word is configured makes no difference to the reading of a document: `parse_stageLabel`.
-/

namespace Comfort

open Text (trimEnd)

namespace GlobalLabels

/-- Both hold the same labels, apart from the word of a stage header. -/
def SameFields (a b : GlobalLabels) : Prop :=
  ∀ key, key ≠ LineForm.stageKey → (key ∈ a.keys ↔ key ∈ b.keys)

theorem sameFields_stage (names : List String) :
    SameFields (ofList (names ++ ["Stage"]))
      (ofList (names.filter fun name => labelKey name != LineForm.stageKey)) := by
  intro key hkey
  have hstage : labelKey "Stage" = LineForm.stageKey := rfl
  simp only [ofList, List.mem_map, List.mem_append, List.mem_singleton, List.mem_filter, bne_iff_ne]
  constructor
  · rintro ⟨name, hname | rfl, rfl⟩
    · exact ⟨name, ⟨hname, hkey⟩, rfl⟩
    · exact absurd hstage hkey
  · rintro ⟨name, ⟨hname, -⟩, rfl⟩
    exact ⟨name, .inl hname, rfl⟩

end GlobalLabels

variable {a b labels : GlobalLabels} {line : SourceLine} {before after : List Char}

/-! ## Lines -/

/-- The heading of a line that is a label in its letters and the word `stage` in lower case. -/
structure IsStageLabel (head : List Char) : Prop
    extends IsHeading (fun c => c.isAlpha = true ∨ c = ' ') head where
  key : lowercase (String.ofList head) = LineForm.stageKey

theorem IsStageLabel.isStage {head : List Char} (h : IsStageLabel head) : IsStage head := by
  refine isStage_iff.1 (LineForm.isStageWord_of_lowercase (List.all_eq_true.2 fun c hc => ?_) h.key)
  exact (isLabelChar_iff c).2 (h.chars c hc)

/-- A label that is none of a stage header is configured in both or in neither. -/
theorem GlobalLabels.SameFields.isLabel_iff (h : a.SameFields b) {head : List Char}
    (hstage : ¬ IsStageLabel head) : IsLabel a head ↔ IsLabel b head := by
  have hkey (hhead : IsHeading (fun c => c.isAlpha = true ∨ c = ' ') head) :
      lowercase (String.ofList head) ≠ LineForm.stageKey :=
    fun hk => hstage ⟨hhead, hk⟩
  constructor
  · rintro ⟨hhead, hconfigured⟩
    exact ⟨hhead, (h _ (hkey hhead)).1 hconfigured⟩
  · rintro ⟨hhead, hconfigured⟩
    exact ⟨hhead, (h _ (hkey hhead)).2 hconfigured⟩

theorem LineForm.configuredLabel?_congr (hn : '\n' ∉ line.text.toList) (h : Headed line before after)
    (hlabel : IsLabel a (trimEnd before) ↔ IsLabel b (trimEnd before)) :
    configuredLabel? a line.span = configuredLabel? b line.span := by
  refine Option.ext fun form => ?_
  rw [configuredLabel?_iff hn h, configuredLabel?_iff hn h, hlabel]

/-- Lines are told apart by their labels in no other way than by the rule for labels. -/
theorem SourceLine.meaning_congr
    (h : LineForm.configuredLabel? a line.span = LineForm.configuredLabel? b line.span) :
    line.meaning a = line.meaning b := by
  have hform : LineForm.classify? a line = LineForm.classify? b line := by
    rw [LineForm.classify?, LineForm.classify?, h]
  rw [meaning, meaning, hform]

/-- Whatever the labels are, the line is the header that it reads as. -/
theorem SourceLine.meaning_of_isStageLabel (hn : '\n' ∉ line.text.toList)
    (h : Headed line before after) (hhead : IsStageLabel (trimEnd before)) :
    line.meaning labels = .ofHeader (LineForm.stageHeader? line.span) := by
  obtain ⟨text, id, hid⟩ := exists_splitsId (Text.trim after)
  have hheader := (LineForm.stageHeader?_iff hn h hid).2 ⟨hhead.isStage, rfl⟩
  have hblank : ¬ line.isBlank = true := by
    rw [h.isBlank]
    exact Bool.false_ne_true
  rw [meaning, if_neg hblank]
  by_cases hl : IsLabel labels (trimEnd before)
  · have hkey : lowercase (line.cutHead before).value = LineForm.stageKey := hhead.key
    have hfield : Field.ofLabel? LineForm.stageKey = none := rfl
    rw [LineForm.classify?_of_configuredLabel? ((LineForm.configuredLabel?_iff hn h).2 ⟨hl, rfl⟩)]
    dsimp only [LineMeaning.ofForm]
    rw [hkey, hfield]
    exact if_pos rfl
  · have hnone := (LineForm.configuredLabel?_eq_none hn h).2 hl
    rw [LineForm.classify?_of_stageHeader? hnone hheader, hheader]
    rfl

/-- A line means the same whether or not the word of a stage header is a label. -/
theorem SourceLine.meaning_eq_of_sameFields (h : a.SameFields b) (hn : '\n' ∉ line.text.toList) :
    line.meaning a = line.meaning b := by
  rcases LineForm.exists_headed line with ⟨before, after, hheaded⟩ | hcolon
  · by_cases hstage : IsStageLabel (trimEnd before)
    · rw [meaning_of_isStageLabel hn hheaded hstage, meaning_of_isStageLabel hn hheaded hstage]
    · exact meaning_congr (LineForm.configuredLabel?_congr hn hheaded (h.isLabel_iff hstage))
  · refine meaning_congr ?_
    rw [LineForm.configuredLabel?, LineForm.configuredLabel?, LineForm.heading?_of_no_colon hcolon]
    rfl

/-! ## Passes -/

namespace Pass

variable {ctx : ParseContext} {p : Pass} {lines : List SourceLine}

/-- A step looks at the labels through the meaning of its line only. -/
theorem step_withLabels (h : line.meaning ctx.labels = line.meaning labels) :
    p.step { ctx with labels := labels } line = p.step ctx line := by
  unfold step
  rw [h]
  rfl

theorem run_withLabels (ctx : ParseContext)
    (h : ∀ line ∈ lines, line.meaning ctx.labels = line.meaning labels) :
    p.run { ctx with labels := labels } lines = p.run ctx lines := by
  induction lines generalizing p with
  | nil => rfl
  | cons line rest ih =>
    rw [run, run, step_withLabels (h line List.mem_cons_self)]
    congr 1
    funext q _
    exact ih fun l hl => h l (List.mem_cons_of_mem _ hl)

end Pass

namespace Document

theorem parse_withLabels {text : String} {store : Store} (options : ParseOptions)
    (h : options.labels.SameFields labels) :
    parse text store { options with labels := labels } = parse text store options := by
  have hmeaning : ∀ line ∈ lines text.toList, line.meaning options.labels = line.meaning labels :=
    fun line hl => SourceLine.meaning_eq_of_sameFields h (newline_not_mem_of_mem_lines hl)
  rw [parse, parse, parseIn_eq_run, parseIn_eq_run]
  exact congrArg Pass.result (Pass.run_withLabels (.ofStore store options) hmeaning)

/-- A document is read in the same way, to the same report or to the same failure, whether the word
of a stage header is among the labels or not. -/
theorem parse_stageLabel (text : String) (store : Store) (options : ParseOptions)
    (names : List String) :
    parse text store { options with labels := .ofList (names ++ ["Stage"]) }
      = parse text store { options with
          labels := .ofList (names.filter fun name => labelKey name != LineForm.stageKey) } :=
  (parse_withLabels { options with labels := .ofList (names ++ ["Stage"]) }
    (GlobalLabels.sameFields_stage names)).symm

end Document
end Comfort
