import Comfort.Proofs.Text.Trim
import Comfort.Session.Document

/-!
What a line means.

The meaning of a line depends on the labels alone and not on what was read before it.  A header that
is read as a label is a header all the same: `stageHeader?_of_label` says that it can always be read
again, so there are no other lines than those of `LineMeaning`.
-/

namespace Comfort

inductive LineMeaning where
  | blank
  | comment (text : Capture)
  /-- A label that sets a field. -/
  | field (field : Field) (label text : Capture)
  | header (name : Capture) (id : Option Capture)
  /-- A dialogue, or a narration where there is no speaker. -/
  | element (speaker : Option Capture) (text : Capture) (id : Option Capture)
  | other

namespace LineMeaning

/-- The meaning of a stage header, once it is read as one. -/
def ofHeader : Option LineForm → LineMeaning
  | some form => header form.text form.id?
  | none => other

def ofForm (line : SourceLine) : LineForm → LineMeaning
  | .comment text => comment text
  | .label label text =>
    match Field.ofLabel? (lowercase label.value) with
    | some f => field f label text
    | none =>
      if lowercase label.value = LineForm.stageKey then ofHeader (LineForm.stageHeader? line.span)
      else other
  | .stage _ name id => header name id
  | .dialogue speaker text id => element (some speaker) text id
  | .narration text id => element none text id

/-- Whether a stage that has begun goes on with the line. -/
def staysInStage : LineMeaning → Bool
  | blank | comment _ | element _ _ _ => true
  | _ => false

end LineMeaning

def SourceLine.meaning (labels : GlobalLabels) (line : SourceLine) : LineMeaning :=
  if line.isBlank then .blank
  else
    match LineForm.classify? labels line with
    | some form => .ofForm line form
    | none => .other

/-! ## Lower case of ASCII text -/

namespace Text

theorem lowerAfter_of_ascii {cs : List Char} (h : ∀ c ∈ cs, c.toNat < 0x80) (before : List Char) :
    lowerAfter before cs = cs.map Char.toLower := by
  induction cs generalizing before with
  | nil => rfl
  | cons c cs ih =>
    have hc : c.toNat < 0x80 := h c (List.mem_cons_self ..)
    have hs : ¬ (c.toNat == 0x3A3) = true := by
      simp only [beq_iff_eq]
      omega
    rw [lowerAfter, if_neg hs, lowerChar_of_ascii hc, ih fun d hd => h d (List.mem_cons_of_mem _ hd)]
    rfl

theorem toList_lowercase_of_ascii {cs : List Char} (h : ∀ c ∈ cs, c.toNat < 0x80) :
    (lowercase (String.ofList cs)).toList = cs.map Char.toLower := by
  rw [lowercase, lower, String.toList_ofList, String.toList_ofList, lowerAfter_of_ascii h]

end Text

/-! ## Headers that are read as labels -/

namespace LineForm

theorem bounds_of_isUpper {c : Char} (h : c.isUpper = true) : 65 ≤ c.toNat ∧ c.toNat ≤ 90 := by
  have hb : c.val ≥ 'A'.val ∧ c.val ≤ 'Z'.val := of_decide_eq_true h
  exact ⟨UInt32.le_iff_toNat_le.1 hb.1, UInt32.le_iff_toNat_le.1 hb.2⟩

theorem bounds_of_isLower {c : Char} (h : c.isLower = true) : 97 ≤ c.toNat ∧ c.toNat ≤ 122 := by
  have hb : (decide (c.val ≥ 'a'.val) && decide (c.val ≤ 'z'.val)) = true := h
  rw [Bool.and_eq_true, decide_eq_true_iff, decide_eq_true_iff] at hb
  exact ⟨UInt32.le_iff_toNat_le.1 hb.1, UInt32.le_iff_toNat_le.1 hb.2⟩

theorem toNat_lt_of_isLabelChar {c : Char} (h : isLabelChar c = true) : c.toNat < 0x80 := by
  rw [isLabelChar, Bool.or_eq_true, beq_iff_eq] at h
  rcases h with h | rfl
  · rcases Bool.or_eq_true_iff.1 h with hu | hl
    · have := bounds_of_isUpper hu
      omega
    · have := bounds_of_isLower hl
      omega
  · decide

/-- An ASCII text that is `stage` in lower case is the word `stage` in some case. -/
theorem isStageWord_of_lowercase {cs : List Char} (ha : cs.all isLabelChar = true)
    (h : lowercase (String.ofList cs) = stageKey) : isStageWord cs = true := by
  have hascii : ∀ c ∈ cs, c.toNat < 0x80 := fun c hc =>
    toNat_lt_of_isLabelChar (List.all_eq_true.1 ha c hc)
  have hl : cs.map Char.toLower = stageKey.toList := by
    rw [← Text.toList_lowercase_of_ascii hascii, h]
  obtain ⟨s, t, a, g, e, rfl⟩ : ∃ s t a g e, cs = [s, t, a, g, e] := by
    have hn : cs.length = 5 := by
      rw [← List.length_map (f := Char.toLower), hl]
      rfl
    match cs, hn with
    | [s, t, a, g, e], _ => exact ⟨s, t, a, g, e, rfl⟩
  have hk : stageKey.toList = ['s', 't', 'a', 'g', 'e'] := rfl
  simp only [hk, List.map_cons, List.map_nil, List.cons.injEq, and_true] at hl
  simp [isStageWord, hl]

theorem plainText?_eq_some {s : Span} {c : Capture} :
    plainText? s = some c ↔ s.chars.contains '\n' = false ∧ s.capture = c := by
  unfold plainText?
  split <;> simp_all

/-- The text that stands before an id is a piece of the whole. -/
theorem mem_of_mem_splitId {body : Span} {c : Char} (h : c ∈ (splitId body).1.chars) :
    c ∈ body.chars := by
  unfold splitId at h
  split at h
  · exact h
  · next text id heq =>
    split at h
    · unfold Span.splitLast? at heq
      split at heq
      · simp only [Option.some.injEq, Prod.mk.injEq] at heq
        rw [← heq.1] at h
        exact List.mem_of_mem_take (Text.mem_of_mem_dropEndWhile h)
      · simp at heq
    · exact h

theorem plainText?_splitId {body : Span} {c : Capture} (h : plainText? body = some c) :
    plainText? (splitId body).1 = some (splitId body).1.capture := by
  rw [plainText?_eq_some] at h ⊢
  refine ⟨?_, rfl⟩
  have hb := h.1
  simp only [List.contains_eq_mem, decide_eq_false_iff_not] at hb ⊢
  exact fun hn => hb (mem_of_mem_splitId hn)

/-! ### Each rule gives its own form -/

variable {labels : GlobalLabels} {s : Span} {form : LineForm}

theorem form_of_comment? (h : comment? s = some form) : ∃ text, form = .comment text := by
  unfold comment? at h
  split at h
  · obtain ⟨text, -, rfl⟩ := Option.map_eq_some_iff.1 h
    exact ⟨text, rfl⟩
  · cases h

theorem form_of_stageHeader? (h : stageHeader? s = some form) :
    ∃ label text id, form = .stage label text id := by
  simp only [stageHeader?, Option.bind_eq_bind, Option.bind_eq_some_iff] at h
  obtain ⟨_, _, _, _, h⟩ := h
  split at h
  · cases h
    exact ⟨_, _, _, rfl⟩
  · cases h

theorem form_of_dialogue? (h : dialogue? s = some form) :
    ∃ speaker text id, form = .dialogue speaker text id := by
  simp only [dialogue?, Option.bind_eq_bind, Option.bind_eq_some_iff] at h
  obtain ⟨_, _, _, _, h⟩ := h
  split at h
  · cases h
    exact ⟨_, _, _, rfl⟩
  · cases h

theorem form_of_narration? (h : narration? s = some form) :
    ∃ text id, form = .narration text id := by
  unfold narration? at h
  split at h
  · obtain ⟨text, -, rfl⟩ := Option.map_eq_some_iff.1 h
    exact ⟨_, _, rfl⟩
  · cases h

theorem configuredLabel?_of_classify? {line : SourceLine} {label text : Capture}
    (h : classify? labels line = some (.label label text)) :
    configuredLabel? labels line.span = some (.label label text) := by
  simp only [classify?, Option.orElse_eq_orElse, Option.orElse_eq_or, Option.or_eq_some_iff] at h
  rcases h with h | ⟨-, h | ⟨-, h | ⟨-, h | ⟨-, h⟩⟩⟩⟩
  · obtain ⟨_, h⟩ := form_of_comment? h
    cases h
  · exact h
  · obtain ⟨_, _, _, h⟩ := form_of_stageHeader? h
    cases h
  · obtain ⟨_, _, _, h⟩ := form_of_dialogue? h
    cases h
  · obtain ⟨_, _, h⟩ := form_of_narration? h
    cases h

theorem stageHeader?_of_label {label text : Capture}
    (h : configuredLabel? labels s = some (.label label text))
    (hk : lowercase label.value = stageKey) :
    ∃ name id, stageHeader? s = some (.stage label name id) := by
  unfold configuredLabel? at h
  cases hh : heading? s with
  | none => simp [hh] at h
  | some pair =>
    obtain ⟨head, body⟩ := pair
    simp only [hh, Option.bind_eq_bind, Option.bind_some, Option.bind_eq_some_iff] at h
    obtain ⟨c, hc, h⟩ := h
    split at h
    · next hcond =>
      cases h
      have hhead : isHeading isLabelChar head.chars = true := by
        simp only [Bool.and_eq_true] at hcond
        exact hcond.1
      simp only [isHeading, Bool.and_eq_true] at hhead
      have hw : isStageWord head.chars = true := isStageWord_of_lowercase hhead.2 hk
      refine ⟨(splitId body).1.capture, (splitId body).2, ?_⟩
      simp [stageHeader?, hh, plainText?_splitId hc, hw]
    · simp at h

end LineForm
end Comfort
