import Comfort.Proofs.Line.Shift
import Comfort.Proofs.Text.Piece

/-!
Lines with an id written behind them.

When ` #` and an id are written behind what a line says, the line is read as before, and the id as
its id.  Nothing else of the line can be taken for the id, as an id has no `#` of its own, and the
blank in front of it is trimmed away.
-/

namespace Comfort
namespace Text

/-- Characters that can be written as an id. -/
structure IsId (id : List Char) : Prop where
  ne_nil : id ≠ []
  chars : ∀ c ∈ id, LineForm.isIdChar c = true

/-- Write an id behind what a text says, in front of the blanks that end it. -/
def annotate (id cs : List Char) : List Char :=
  trimEnd cs ++ ' ' :: '#' :: id ++ trailing cs

theorem bounds_of_isDigit {c : Char} (h : c.isDigit = true) : 48 ≤ c.toNat ∧ c.toNat ≤ 57 := by
  have hb : (decide (c.val ≥ '0'.val) && decide (c.val ≤ '9'.val)) = true := h
  rw [Bool.and_eq_true, decide_eq_true_iff, decide_eq_true_iff] at hb
  exact ⟨UInt32.le_iff_toNat_le.1 hb.1, UInt32.le_iff_toNat_le.1 hb.2⟩

theorem toNat_of_isIdChar {c : Char} (h : LineForm.isIdChar c = true) :
    (97 ≤ c.toNat ∧ c.toNat ≤ 122) ∨ (48 ≤ c.toNat ∧ c.toNat ≤ 57) ∨ c.toNat = 95 := by
  rw [LineForm.isIdChar, Bool.or_eq_true, Bool.or_eq_true, beq_iff_eq] at h
  rcases h with (hl | hd) | rfl
  · exact .inl (LineForm.bounds_of_isLower hl)
  · exact .inr (.inl (bounds_of_isDigit hd))
  · exact .inr (.inr rfl)

theorem isBlank_of_isIdChar {c : Char} (h : LineForm.isIdChar c = true) : isBlank c = false := by
  have hn := toNat_of_isIdChar h
  simp only [isBlank, Bool.or_eq_false_iff, Bool.and_eq_false_iff, decide_eq_false_iff_not,
    beq_eq_false_iff_ne]
  omega

theorem ne_of_isIdChar {c d : Char} (h : LineForm.isIdChar c = true)
    (hd : LineForm.isIdChar d = false) : c ≠ d := by
  rintro rfl
  rw [h] at hd
  cases hd

theorem IsId.not_mem {id : List Char} (hid : IsId id) {d : Char}
    (hd : LineForm.isIdChar d = false) : d ∉ id :=
  fun hm => ne_of_isIdChar (hid.chars d hm) hd rfl

theorem IsId.solid {id : List Char} (hid : IsId id) : Solid id := by
  have hlast := List.dropLast_append_getLast hid.ne_nil
  refine ⟨id.dropLast, id.getLast hid.ne_nil, hlast.symm, ?_⟩
  exact isBlank_of_isIdChar (hid.chars _ (List.getLast_mem hid.ne_nil))

/-- A trimmed text with an id behind it, which a blank may divide from the text. -/
def Noted (id body noted : List Char) : Prop :=
  trimEnd body = body ∧
    ∃ gap, (∀ c ∈ gap, c = ' ') ∧ noted = body ++ gap ++ '#' :: id

theorem noted_trim {id r b : List Char} (hid : IsId id) (hr : r = [] ∨ Solid r)
    (hb : ∀ c ∈ b, isBlank c = true) :
    Noted id (trim (r ++ b)) (trim (r ++ ' ' :: '#' :: id ++ b)) := by
  have hnote : Solid (' ' :: '#' :: id) := hid.solid.append [' ', '#']
  rw [trim_append_of_solid (hnote.append r) hb]
  rcases hr with rfl | hr
  · rw [List.nil_append, trim_of_blank hb]
    refine ⟨rfl, [], ?_, rfl⟩
    intro c hc
    cases hc
  · rw [trim_append_of_solid hr hb, trimStart_append_of_solid hr]
    refine ⟨(solid_trimStart hr).trimEnd, [' '], fun c hc => List.mem_singleton.1 hc, ?_⟩
    simp

theorem Noted.mem_newline {id body noted : List Char} (hid : IsId id) (h : Noted id body noted) :
    '\n' ∈ noted ↔ '\n' ∈ body := by
  obtain ⟨_, gap, hgap, rfl⟩ := h
  have hg : '\n' ∉ gap := fun hm => absurd (hgap _ hm) (by decide)
  have hi : '\n' ∉ id := hid.not_mem (by decide)
  have hn : '\n' ≠ '#' := by decide
  simp [hg, hi, hn]

end Text

namespace LineForm

open Text (Solid IsId Noted)

theorem splitId_of_noted {id : List Char} {body noted : Span} (hid : IsId id)
    (h : Noted id body.chars noted.chars) :
    ∃ c, (splitId noted).2 = some c ∧ c.value = String.ofList id ∧
      (splitId noted).1.chars = body.chars := by
  obtain ⟨htrim, gap, hgap, heq⟩ := h
  have hsplit := Span.splitLast?_of_eq heq (hid.not_mem (by decide))
  have hcond : (!id.isEmpty && id.all isIdChar) = true := by
    simpa [hid.ne_nil] using hid.chars
  have hblank : ∀ c ∈ gap, Text.isBlank c = true := fun c hc => by
    rw [hgap c hc]
    rfl
  unfold splitId
  rw [hsplit]
  dsimp only
  rw [if_pos hcond]
  refine ⟨_, rfl, rfl, ?_⟩
  show Text.trimEnd (body.chars ++ gap) = body.chars
  rw [Text.trimEnd_append_of_blank hblank, htrim]

theorem eq_of_splitId {body : Span} (h : (splitId body).2 = none) : (splitId body).1 = body := by
  unfold splitId at h ⊢
  split
  · rfl
  · next text id hsplit =>
    rw [hsplit] at h
    dsimp only at h
    split
    · next hcond =>
      rw [if_pos hcond] at h
      cases h
    · rfl

/-- A span that ends in blanks, and the same span with an id written in front of them. -/
def Annotated (id : List Char) (s t : Span) : Prop :=
  ∃ a b, Solid a ∧ (∀ c ∈ b, Text.isBlank c = true) ∧ s.chars = a ++ b ∧
    t.chars = a ++ ' ' :: '#' :: id ++ b

variable {labels : GlobalLabels} {id : List Char} {s t : Span}

theorem Annotated.trimStart (h : Annotated id s t) (hid : IsId id) :
    Annotated id s.trimStart t.trimStart := by
  obtain ⟨a, b, ha, hb, hs, ht⟩ := h
  refine ⟨Text.trimStart a, b, Text.solid_trimStart ha, hb, ?_, ?_⟩
  · show Text.trimStart s.chars = _
    rw [hs, Text.trimStart_append_of_solid ha]
  · have hnote : Solid (a ++ ' ' :: '#' :: id) := (hid.solid.append [' ', '#']).append a
    show Text.trimStart t.chars = _
    rw [ht, Text.trimStart_append_of_solid hnote, Text.trimStart_append_of_solid ha]

theorem Annotated.head? (h : Annotated id s t) : t.chars.head? = s.chars.head? := by
  obtain ⟨a, b, ha, -, hs, ht⟩ := h
  cases a with
  | nil => exact absurd rfl ha.ne_nil
  | cons c a =>
    rw [hs, ht]
    rfl

theorem Annotated.noted_after {c : Char} (hid : IsId id) {a b r : List Char}
    (ha : Solid a) (hb : ∀ d ∈ b, Text.isBlank d = true) {x : List Char} (heq : a = x ++ c :: r) :
    Noted id (Text.trim (r ++ b)) (Text.trim (r ++ ' ' :: '#' :: id ++ b)) := by
  refine Text.noted_trim hid ?_ hb
  by_cases hr : r = []
  · exact .inl hr
  · have hassoc : x ++ c :: r = (x ++ [c]) ++ r := by simp
    rw [heq, hassoc] at ha
    exact .inr (ha.of_append hr)

/-- The heading stays, and the body has the id behind it. -/
theorem heading?_annotated (h : Annotated id s t) (hid : IsId id) :
    (heading? s = none ∧ heading? t = none) ∨
    ∃ head body head' body', heading? s = some (head, body) ∧ heading? t = some (head', body') ∧
      head'.chars = head.chars ∧ Noted id body.chars body'.chars := by
  obtain ⟨a, b, ha, hb, hs, ht⟩ := h.trimStart hid
  have hcolon : ∀ c ∈ b, c ≠ ':' := fun c hc hne => by
    have := hb c hc
    rw [hne] at this
    exact absurd this (by decide)
  unfold heading?
  by_cases hm : ':' ∈ a
  · obtain ⟨x, r, heq, hx⟩ := List.eq_append_cons_of_mem hm
    have hs' : s.trimStart.chars = x ++ ':' :: (r ++ b) := by rw [hs, heq]; simp
    have ht' : t.trimStart.chars = x ++ ':' :: (r ++ ' ' :: '#' :: id ++ b) := by
      rw [ht, heq]
      simp
    rw [Span.splitFirst?_of_eq hs' hx, Span.splitFirst?_of_eq ht' hx]
    exact .inr ⟨_, _, _, _, rfl, rfl, rfl, Annotated.noted_after hid ha hb heq⟩
  · have hbm : ':' ∉ b := fun hc => hcolon ':' hc rfl
    have him : ':' ∉ id := hid.not_mem (by decide)
    have hsm : ':' ∉ s.trimStart.chars := by simp [hs, hm, hbm]
    have htm : ':' ∉ t.trimStart.chars := by simp [ht, hm, hbm, him]
    rw [Span.splitFirst?_of_notMem hsm, Span.splitFirst?_of_notMem htm]
    exact .inl ⟨rfl, rfl⟩

theorem plainText?_noted {body noted : Span} (hid : IsId id) (h : Noted id body.chars noted.chars) :
    (plainText? noted).isSome = (plainText? body).isSome := by
  have hmem := h.mem_newline hid
  unfold plainText?
  by_cases hn : '\n' ∈ body.chars
  · rw [if_pos (by simpa using hmem.2 hn), if_pos (by simpa using hn)]
  · have hn' : '\n' ∉ noted.chars := fun hm => hn (hmem.1 hm)
    rw [if_neg (by simpa using hn'), if_neg (by simpa using hn)]
    rfl

/-! ## The rules -/

theorem comment?_of_head {s : Span} (h : s.trimStart.chars.head? ≠ some '/') :
    comment? s = none := by
  unfold comment?
  split
  · next heq =>
    rw [heq] at h
    exact absurd rfl h
  · rfl

theorem configuredLabel?_annotated (h : Annotated id s t) (hid : IsId id) :
    (configuredLabel? labels s = none ∧ configuredLabel? labels t = none) ∨
    ∃ label text label' text', configuredLabel? labels s = some (.label label text) ∧
      configuredLabel? labels t = some (.label label' text') ∧ label'.value = label.value := by
  unfold configuredLabel?
  rcases heading?_annotated h hid with ⟨hs, ht⟩ | ⟨head, body, head', body', hs, ht, hhead, hbody⟩
  · rw [hs, ht]
    exact .inl ⟨rfl, rfl⟩
  · have hplain := plainText?_noted hid hbody
    have htext : head'.text = head.text := congrArg String.ofList hhead
    rw [hs, ht]
    simp only [Option.bind_eq_bind, Option.bind_some, hhead, htext]
    cases hb : plainText? body with
    | none =>
      rw [hb] at hplain
      have hb' : plainText? body' = none := Option.not_isSome_iff_eq_none.1 (by simp [hplain])
      rw [hb']
      exact .inl ⟨rfl, rfl⟩
    | some text =>
      rw [hb] at hplain
      obtain ⟨text', hb'⟩ := Option.isSome_iff_exists.1 hplain
      rw [hb', Option.bind_some, Option.bind_some]
      split
      · exact .inr ⟨head.capture, text, head'.capture, text', rfl, rfl, htext⟩
      · exact .inl ⟨rfl, rfl⟩

/-- What is read from a heading and a body without an id, and from the body with an id behind. -/
theorem plainText?_splitId_noted {body noted : Span} {text : Capture} (hid : IsId id)
    (h : Noted id body.chars noted.chars) (hnone : (splitId body).2 = none)
    (hp : plainText? (splitId body).1 = some text) :
    ∃ text' c, plainText? (splitId noted).1 = some text' ∧ text'.value = text.value ∧
      (splitId noted).2 = some c ∧ c.value = String.ofList id := by
  obtain ⟨c, hc, hvalue, hchars⟩ := splitId_of_noted hid h
  rw [eq_of_splitId hnone] at hp
  obtain ⟨hn, rfl⟩ := plainText?_eq_some.1 hp
  refine ⟨(splitId noted).1.capture, c, plainText?_eq_some.2 ⟨?_, rfl⟩, ?_, hc, hvalue⟩
  · rw [hchars]
    exact hn
  · exact congrArg String.ofList hchars

theorem stageHeader?_annotated (h : Annotated id s t) (hid : IsId id) {label text : Capture}
    (hs : stageHeader? s = some (.stage label text none)) :
    ∃ label' text' c, stageHeader? t = some (.stage label' text' (some c)) ∧
      text'.value = text.value ∧ c.value = String.ofList id := by
  unfold stageHeader? at hs ⊢
  rcases heading?_annotated h hid with ⟨hn, -⟩ | ⟨head, body, head', body', hh, hh', hhead, hbody⟩
  · rw [hn] at hs
    cases hs
  · rw [hh] at hs
    rw [hh']
    simp only [Option.bind_eq_bind, Option.bind_some, Option.bind_eq_some_iff] at hs ⊢
    obtain ⟨text, hp, hs⟩ := hs
    split at hs
    · next hword =>
      simp only [Option.some.injEq, LineForm.stage.injEq] at hs
      obtain ⟨rfl, rfl, hnone⟩ := hs
      obtain ⟨text', c, hp', hvalue, hc, hcvalue⟩ := plainText?_splitId_noted hid hbody hnone hp
      refine ⟨head'.capture, text', c, ⟨text', hp', ?_⟩, hvalue, hcvalue⟩
      rw [hhead, if_pos hword, hc]
    · cases hs

theorem dialogue?_annotated (h : Annotated id s t) (hid : IsId id) {speaker text : Capture}
    (hs : dialogue? s = some (.dialogue speaker text none)) :
    ∃ speaker' text' c, dialogue? t = some (.dialogue speaker' text' (some c)) ∧
      speaker'.value = speaker.value ∧ text'.value = text.value ∧ c.value = String.ofList id := by
  unfold dialogue? at hs ⊢
  rcases heading?_annotated h hid with ⟨hn, -⟩ | ⟨head, body, head', body', hh, hh', hhead, hbody⟩
  · rw [hn] at hs
    cases hs
  · rw [hh] at hs
    rw [hh']
    simp only [Option.bind_eq_bind, Option.bind_some, Option.bind_eq_some_iff] at hs ⊢
    obtain ⟨text, hp, hs⟩ := hs
    split at hs
    · next hword =>
      simp only [Option.some.injEq, LineForm.dialogue.injEq] at hs
      obtain ⟨rfl, rfl, hnone⟩ := hs
      obtain ⟨text', c, hp', hvalue, hc, hcvalue⟩ := plainText?_splitId_noted hid hbody hnone hp
      refine ⟨head'.capture, text', c, ⟨text', hp', ?_⟩, congrArg String.ofList hhead, hvalue,
        hcvalue⟩
      rw [hhead, if_pos hword, hc]
    · cases hs

theorem narration?_annotated (h : Annotated id s t) (hid : IsId id) {text : Capture}
    (hs : narration? s = some (.narration text none)) :
    ∃ text' c, narration? t = some (.narration text' (some c)) ∧ text'.value = text.value ∧
      c.value = String.ofList id := by
  have htrim := h.trimStart hid
  obtain ⟨a, b, ha, hb, has, hat⟩ := htrim
  have hhead := (h.trimStart hid).head?
  unfold narration? at hs
  split at hs
  · next rest heq =>
    obtain ⟨r, rfl⟩ : ∃ r, a = '>' :: r := by
      cases a with
      | nil => exact absurd rfl ha.ne_nil
      | cons c r =>
        rw [has] at heq
        exact ⟨r, by rw [(List.cons.inj heq).1]⟩
    have hbody : Noted id ((s.trimStart.drop 1).trim).chars ((t.trimStart.drop 1).trim).chars := by
      show Noted id (Text.trim (s.trimStart.chars.drop 1)) (Text.trim (t.trimStart.chars.drop 1))
      rw [has, hat]
      exact Annotated.noted_after hid ha hb (List.nil_append ('>' :: r)).symm
    obtain ⟨text, hp, hform⟩ := Option.map_eq_some_iff.1 hs
    simp only [LineForm.narration.injEq] at hform
    obtain ⟨rfl, hnone⟩ := hform
    obtain ⟨text', c, hp', hvalue, hc, hcvalue⟩ := plainText?_splitId_noted hid hbody hnone hp
    refine ⟨text', c, ?_, hvalue, hcvalue⟩
    have hchars : t.trimStart.chars = '>' :: (r ++ ' ' :: '#' :: id ++ b) := by
      rw [hat]
      simp
    unfold narration?
    rw [hchars]
    dsimp only
    rw [hp', hc]
    rfl
  · cases hs

/-- A line of dialogue is not read as a header for the id behind it. -/
theorem stageHeader?_annotated_of_dialogue? (h : Annotated id s t) (hid : IsId id)
    (hs : stageHeader? s = none) {speaker text : Capture} {c : Option Capture}
    (hd : dialogue? s = some (.dialogue speaker text c)) : stageHeader? t = none := by
  unfold stageHeader? at hs ⊢
  unfold dialogue? at hd
  rcases heading?_annotated h hid with ⟨hn, -⟩ | ⟨head, body, head', body', hh, hh', hhead, -⟩
  · rw [hn] at hd
    cases hd
  · rw [hh] at hs hd
    rw [hh']
    simp only [Option.bind_eq_bind, Option.bind_some, Option.bind_eq_some_iff] at hs hd ⊢
    obtain ⟨text, hp, -⟩ := hd
    rw [hp, Option.bind_some] at hs
    have hword : ¬ isStageWord head.chars = true := by
      intro hw
      rw [if_pos hw] at hs
      cases hs
    rw [hhead]
    simp only [if_neg hword]
    cases plainText? (splitId body').1 <;> rfl

/-! ### How lines with a heading begin -/

/-- The line begins neither as a comment nor as a narration. -/
def StartsWord (s : Span) : Prop :=
  ∃ c, s.trimStart.chars.head? = some c ∧ c ≠ '/' ∧ c ≠ '>'

theorem head?_of_isHeading {p : Char → Bool} {cs : List Char} (h : isHeading p cs = true) :
    ∃ c, cs.head? = some c ∧ c ≠ '/' ∧ c ≠ '>' := by
  simp only [isHeading, Bool.and_eq_true] at h
  cases cs with
  | nil => cases h.1
  | cons c cs =>
    have hc : c.isAlpha = true := h.1
    refine ⟨c, rfl, ?_, ?_⟩
    · rintro rfl
      exact absurd hc (by decide)
    · rintro rfl
      exact absurd hc (by decide)

theorem head?_of_isStageWord {cs : List Char} (h : isStageWord cs = true) :
    ∃ c, cs.head? = some c ∧ c ≠ '/' ∧ c ≠ '>' := by
  unfold isStageWord at h
  split at h
  · next c _ _ _ _ =>
    refine ⟨c, rfl, ?_, ?_⟩
    · rintro rfl
      simp at h
    · rintro rfl
      simp at h
  · cases h

theorem startsWord_of_heading? {s head body : Span} (h : heading? s = some (head, body))
    (hc : ∃ c, head.chars.head? = some c ∧ c ≠ '/' ∧ c ≠ '>') : StartsWord s := by
  obtain ⟨c, hfirst, hne⟩ := hc
  refine ⟨c, ?_, hne⟩
  obtain ⟨⟨before, after⟩, hsplit, heq⟩ := Option.map_eq_some_iff.1 h
  have hhead : before.trimEnd = head := (Prod.mk.inj heq).1
  have hpre : head.chars <+: s.trimStart.chars := by
    rw [← hhead]
    refine (List.rdropWhile_prefix Text.isBlank before.chars).trans ?_
    unfold Span.splitFirst? at hsplit
    split at hsplit
    · rw [← (Prod.mk.inj (Option.some.inj hsplit)).1]
      exact List.take_prefix ..
    · cases hsplit
  obtain ⟨rest, hrest⟩ := hpre
  rw [← hrest, List.head?_append, hfirst]
  rfl

theorem startsWord_of_configuredLabel? {s : Span} {form : LineForm}
    (h : configuredLabel? labels s = some form) : StartsWord s := by
  simp only [configuredLabel?, Option.bind_eq_bind, Option.bind_eq_some_iff] at h
  obtain ⟨⟨head, body⟩, hh, _, _, h⟩ := h
  split at h
  · next hcond =>
    rw [Bool.and_eq_true] at hcond
    exact startsWord_of_heading? hh (head?_of_isHeading hcond.1)
  · cases h

theorem startsWord_of_stageHeader? {s : Span} {form : LineForm}
    (h : stageHeader? s = some form) : StartsWord s := by
  simp only [stageHeader?, Option.bind_eq_bind, Option.bind_eq_some_iff] at h
  obtain ⟨⟨head, body⟩, hh, _, _, h⟩ := h
  split at h
  · next hword => exact startsWord_of_heading? hh (head?_of_isStageWord hword)
  · cases h

theorem startsWord_of_dialogue? {s : Span} {form : LineForm}
    (h : dialogue? s = some form) : StartsWord s := by
  simp only [dialogue?, Option.bind_eq_bind, Option.bind_eq_some_iff] at h
  obtain ⟨⟨head, body⟩, hh, _, _, h⟩ := h
  split at h
  · next hword => exact startsWord_of_heading? hh (head?_of_isHeading hword)
  · cases h

theorem comment?_of_startsWord {s : Span} (h : StartsWord s) : comment? s = none := by
  obtain ⟨c, hc, hne, -⟩ := h
  refine comment?_of_head ?_
  rw [hc]
  exact fun heq => hne (Option.some.inj heq)

theorem head?_of_narration? {s : Span} {form : LineForm} (h : narration? s = some form) :
    s.trimStart.chars.head? = some '>' := by
  unfold narration? at h
  split at h
  · next heq =>
    rw [heq]
    rfl
  · cases h

theorem not_startsWord_of_narration? {s : Span} {form : LineForm}
    (h : narration? s = some form) : ¬ StartsWord s := by
  rintro ⟨c, hc, -, hne⟩
  rw [head?_of_narration? h] at hc
  exact hne (Option.some.inj hc).symm

theorem form_of_configuredLabel? {s : Span} {form : LineForm}
    (h : configuredLabel? labels s = some form) : ∃ name text, form = .label name text := by
  simp only [configuredLabel?, Option.bind_eq_bind, Option.bind_eq_some_iff] at h
  obtain ⟨_, _, _, _, h⟩ := h
  split at h
  · cases h
    exact ⟨_, _, rfl⟩
  · cases h

/-! ### The order of the rules

Comments and narrations begin with a character of their own, so only the rules that need a heading
can get in the way of one another. -/

theorem classify?_of_configuredLabel? {line : SourceLine} {form : LineForm}
    (h : configuredLabel? labels line.span = some form) : classify? labels line = some form := by
  rw [classify?, comment?_of_startsWord (startsWord_of_configuredLabel? h), h]
  rfl

theorem classify?_of_stageHeader? {line : SourceLine} {form : LineForm}
    (hl : configuredLabel? labels line.span = none) (h : stageHeader? line.span = some form) :
    classify? labels line = some form := by
  rw [classify?, comment?_of_startsWord (startsWord_of_stageHeader? h), hl, h]
  rfl

theorem classify?_of_dialogue? {line : SourceLine} {form : LineForm}
    (hl : configuredLabel? labels line.span = none) (hs : stageHeader? line.span = none)
    (h : dialogue? line.span = some form) : classify? labels line = some form := by
  rw [classify?, comment?_of_startsWord (startsWord_of_dialogue? h), hl, hs, h]
  rfl

theorem classify?_of_narration? {line : SourceLine} {form : LineForm}
    (h : narration? line.span = some form) : classify? labels line = some form := by
  have hstart : ¬ StartsWord line.span := not_startsWord_of_narration? h
  have hcomment : comment? line.span = none := by
    refine comment?_of_head ?_
    rw [head?_of_narration? h]
    decide
  have hlabel : configuredLabel? labels line.span = none :=
    Option.eq_none_iff_forall_ne_some.2 fun form hf => hstart (startsWord_of_configuredLabel? hf)
  have hstage : stageHeader? line.span = none :=
    Option.eq_none_iff_forall_ne_some.2 fun form hf => hstart (startsWord_of_stageHeader? hf)
  have hdialogue : dialogue? line.span = none :=
    Option.eq_none_iff_forall_ne_some.2 fun form hf => hstart (startsWord_of_dialogue? hf)
  rw [classify?, hcomment, hlabel, hstage, hdialogue, h]
  rfl

end LineForm

namespace LineMeaning

/-- A header or an element that has no id. -/
def lacksId : LineMeaning → Bool
  | header _ none => true
  | element _ _ none => true
  | _ => false

/-- The meaning of a line before and after it was given an id. -/
inductive Gains (id : String) : LineMeaning → LineMeaning → Prop where
  | header {name name' c : Capture} (hn : name'.value = name.value) (hc : c.value = id) :
      Gains id (.header name none) (.header name' (some c))
  | element {speaker speaker' : Option Capture} {text text' c : Capture}
      (hs : speaker'.map Capture.value = speaker.map Capture.value)
      (ht : text'.value = text.value) (hc : c.value = id) :
      Gains id (.element speaker text none) (.element speaker' text' (some c))

end LineMeaning

namespace SourceLine

open LineForm (Annotated classify?)
open Text (IsId)

theorem isBlank_of_annotated {line line' : SourceLine} {id : List Char}
    (h : Annotated id line.span line'.span) : line'.isBlank = false := by
  obtain ⟨a, b, ha, hb, hs, ht⟩ := h
  have hchars : line'.text.toList = a ++ ' ' :: '#' :: id ++ b := ht
  have hhash : Text.isBlank '#' = false := by decide
  unfold isBlank Text.allBlank
  rw [hchars]
  simp [hhash]

section Rules

variable {labels : GlobalLabels} {line line' : SourceLine} {id : List Char}
  (h : Annotated id line.span line'.span) (hid : IsId id)

include h hid

theorem classify?_annotated_label {label text : Capture}
    (hl : LineForm.configuredLabel? labels line.span = some (.label label text)) :
    ∃ label' text', classify? labels line' = some (.label label' text') ∧
      label'.value = label.value := by
  rcases LineForm.configuredLabel?_annotated h hid with ⟨hn, -⟩ | ⟨l, t, l', t', hs, ht, hvalue⟩
  · rw [hn] at hl
    cases hl
  · rw [hs] at hl
    cases hl
    exact ⟨l', t', LineForm.classify?_of_configuredLabel? ht, hvalue⟩

theorem configuredLabel?_annotated_of_none
    (hl : LineForm.configuredLabel? labels line.span = none) :
    LineForm.configuredLabel? labels line'.span = none := by
  rcases LineForm.configuredLabel?_annotated h hid with ⟨-, ht⟩ | ⟨_, _, _, _, hs, _⟩
  · exact ht
  · rw [hs] at hl
    cases hl

theorem classify?_annotated_stage (hl : LineForm.configuredLabel? labels line.span = none)
    {label name : Capture}
    (hs : LineForm.stageHeader? line.span = some (.stage label name none)) :
    ∃ label' name' c, classify? labels line' = some (.stage label' name' (some c)) ∧
      name'.value = name.value ∧ c.value = String.ofList id := by
  have hl' := configuredLabel?_annotated_of_none h hid hl
  obtain ⟨label', name', c, ht, hvalues⟩ := LineForm.stageHeader?_annotated h hid hs
  exact ⟨label', name', c, LineForm.classify?_of_stageHeader? hl' ht, hvalues⟩

theorem classify?_annotated_dialogue (hl : LineForm.configuredLabel? labels line.span = none)
    (hs : LineForm.stageHeader? line.span = none) {speaker text : Capture}
    (hd : LineForm.dialogue? line.span = some (.dialogue speaker text none)) :
    ∃ speaker' text' c, classify? labels line' = some (.dialogue speaker' text' (some c)) ∧
      speaker'.value = speaker.value ∧ text'.value = text.value ∧ c.value = String.ofList id := by
  have hl' := configuredLabel?_annotated_of_none h hid hl
  have hs' := LineForm.stageHeader?_annotated_of_dialogue? h hid hs hd
  obtain ⟨speaker', text', c, ht, hvalues⟩ := LineForm.dialogue?_annotated h hid hd
  exact ⟨speaker', text', c, LineForm.classify?_of_dialogue? hl' hs' ht, hvalues⟩

theorem classify?_annotated_narration {text : Capture}
    (hn : LineForm.narration? line.span = some (.narration text none)) :
    ∃ text' c, classify? labels line' = some (.narration text' (some c)) ∧
      text'.value = text.value ∧ c.value = String.ofList id := by
  obtain ⟨text', c, ht, hvalues⟩ := LineForm.narration?_annotated h hid hn
  exact ⟨text', c, LineForm.classify?_of_narration? ht, hvalues⟩

/-- A header that was read as a label is read as one again. -/
theorem gains_ofForm_label {label text label' text' : Capture}
    (hvalue : label'.value = label.value)
    (hm : (LineMeaning.ofForm line (.label label text)).lacksId = true) :
    (LineMeaning.ofForm line (.label label text)).Gains (String.ofList id)
      (LineMeaning.ofForm line' (.label label' text')) := by
  unfold LineMeaning.ofForm at hm ⊢
  dsimp only at hm ⊢
  rw [hvalue]
  cases hf : Field.ofLabel? (lowercase label.value) with
  | some field =>
    rw [hf] at hm
    cases hm
  | none =>
    rw [hf] at hm
    dsimp only at hm ⊢
    by_cases hk : lowercase label.value = LineForm.stageKey
    · rw [if_pos hk] at hm
      rw [if_pos hk, if_pos hk]
      cases hs : LineForm.stageHeader? line.span with
      | none =>
        rw [hs] at hm
        cases hm
      | some form =>
        obtain ⟨head, name, c, rfl⟩ := LineForm.form_of_stageHeader? hs
        rw [hs] at hm
        cases c with
        | some c => cases hm
        | none =>
          obtain ⟨head', name', c, ht, hn, hc⟩ := LineForm.stageHeader?_annotated h hid hs
          rw [ht]
          exact .header hn hc
    · rw [if_neg hk] at hm
      cases hm

/-- A line without an id that is given one is read as before, and the id as its id. -/
theorem meaning_annotated (hm : (line.meaning labels).lacksId = true) :
    (line.meaning labels).Gains (String.ofList id) (line'.meaning labels) := by
  have hblank' : ¬ line'.isBlank = true := by
    rw [isBlank_of_annotated h]
    decide
  unfold meaning at hm ⊢
  rw [if_neg hblank']
  by_cases hblank : line.isBlank = true
  · rw [if_pos hblank] at hm
    cases hm
  rw [if_neg hblank] at hm ⊢
  cases hc : classify? labels line with
  | none =>
    rw [hc] at hm
    cases hm
  | some form =>
    rw [hc] at hm
    dsimp only at hm ⊢
    simp only [classify?, Option.orElse_eq_orElse, Option.orElse_eq_or, Option.or_eq_some_iff] at hc
    rcases hc with hc | ⟨-, hc | ⟨hlabel, hc | ⟨hstage, hc | ⟨-, hc⟩⟩⟩⟩
    · obtain ⟨text, rfl⟩ := LineForm.form_of_comment? hc
      cases hm
    · obtain ⟨label, text, rfl⟩ := LineForm.form_of_configuredLabel? hc
      obtain ⟨label', text', hc', hvalue⟩ := classify?_annotated_label h hid hc
      rw [hc']
      exact gains_ofForm_label h hid hvalue hm
    · obtain ⟨label, name, c, rfl⟩ := LineForm.form_of_stageHeader? hc
      cases c with
      | some c => cases hm
      | none =>
        obtain ⟨label', name', c, hc', hn, hv⟩ := classify?_annotated_stage h hid hlabel hc
        rw [hc']
        exact .header hn hv
    · obtain ⟨speaker, text, c, rfl⟩ := LineForm.form_of_dialogue? hc
      cases c with
      | some c => cases hm
      | none =>
        obtain ⟨speaker', text', c, hc', hsp, ht, hv⟩ :=
          classify?_annotated_dialogue h hid hlabel hstage hc
        rw [hc']
        exact .element (congrArg some hsp) ht hv
    · obtain ⟨text, c, rfl⟩ := LineForm.form_of_narration? hc
      cases c with
      | some c => cases hm
      | none =>
        obtain ⟨text', c, hc', ht, hv⟩ : ∃ text' c,
            classify? labels line' = some (.narration text' (some c)) ∧
              text'.value = text.value ∧ c.value = String.ofList id :=
          classify?_annotated_narration h hid hc
        rw [hc']
        exact .element rfl ht hv

end Rules

end SourceLine
end Comfort
