import Comfort.Proofs.Line.Meaning

/-!
Lines at another place of the document.

What a line means depends on where it stands only through the ranges of its captures, and these move
along with the line.
-/

namespace Comfort

def Span.shift (n : Nat) (s : Span) : Span :=
  { s with start := s.start + n }

def Capture.shift (n : Nat) (c : Capture) : Capture :=
  { c with range := c.range.shift n }

def LineForm.shift (n : Nat) : LineForm → LineForm
  | .comment text => .comment (text.shift n)
  | .label name text => .label (name.shift n) (text.shift n)
  | .stage name text id => .stage (name.shift n) (text.shift n) (id.map (·.shift n))
  | .dialogue speaker text id => .dialogue (speaker.shift n) (text.shift n) (id.map (·.shift n))
  | .narration text id => .narration (text.shift n) (id.map (·.shift n))

def LineMeaning.shift (n : Nat) : LineMeaning → LineMeaning
  | .blank => .blank
  | .comment text => .comment (text.shift n)
  | .field f label text => .field f (label.shift n) (text.shift n)
  | .header name id => .header (name.shift n) (id.map (·.shift n))
  | .element speaker text id =>
    .element (speaker.map (·.shift n)) (text.shift n) (id.map (·.shift n))
  | .other => .other

namespace Span

variable (n : Nat) (s : Span)

@[simp] theorem chars_shift : (s.shift n).chars = s.chars := rfl

theorem capture_shift : (s.shift n).capture = s.capture.shift n := by
  simp only [capture, Capture.shift, range, shift, TextRange.shift, text]
  congr 2
  omega

theorem drop_shift (k : Nat) : (s.shift n).drop k = (s.drop k).shift n := by
  simp only [drop, shift]
  congr 1
  omega

theorem take_shift (k : Nat) : (s.shift n).take k = (s.take k).shift n := rfl

theorem trimEnd_shift : (s.shift n).trimEnd = s.trimEnd.shift n := rfl

theorem trimStart_shift : (s.shift n).trimStart = s.trimStart.shift n := by
  simp only [trimStart, dropWhile, shift]
  congr 1
  omega

theorem trim_shift : (s.shift n).trim = s.trim.shift n := by
  rw [trim, trimStart_shift, trimEnd_shift]
  rfl

theorem splitFirst?_shift (c : Char) :
    (s.shift n).splitFirst? c
      = (s.splitFirst? c).map fun (before, after) => (before.shift n, after.shift n) := by
  unfold splitFirst?
  rw [chars_shift]
  split
  · simp only [Option.map_some, take_shift, drop_shift]
  · rfl

theorem splitLast?_shift (c : Char) :
    (s.shift n).splitLast? c
      = (s.splitLast? c).map fun (before, after) => (before.shift n, after.shift n) := by
  unfold splitLast?
  rw [chars_shift]
  split
  · simp only [Option.map_some, take_shift, drop_shift]
  · rfl

end Span

namespace LineForm

variable (n : Nat) (s : Span)

theorem plainText?_shift : plainText? (s.shift n) = (plainText? s).map (·.shift n) := by
  unfold plainText?
  rw [Span.chars_shift, Span.capture_shift]
  split <;> rfl

theorem heading?_shift :
    heading? (s.shift n)
      = (heading? s).map fun (head, body) => (head.shift n, body.shift n) := by
  unfold heading?
  rw [Span.trimStart_shift, Span.splitFirst?_shift]
  cases s.trimStart.splitFirst? ':' with
  | none => rfl
  | some pair =>
    simp only [Option.map_some, Span.trimEnd_shift, Span.trim_shift]

theorem splitId_shift :
    splitId (s.shift n) = ((splitId s).1.shift n, (splitId s).2.map (·.shift n)) := by
  unfold splitId
  rw [Span.splitLast?_shift]
  cases s.splitLast? '#' with
  | none => rfl
  | some pair =>
    obtain ⟨text, id⟩ := pair
    simp only [Option.map_some, Span.chars_shift]
    by_cases hid : (!id.chars.isEmpty && id.chars.all isIdChar) = true
    · simp only [if_pos hid, Span.trimEnd_shift, Span.capture_shift, Option.map_some]
    · simp only [hid]
      rfl

theorem comment?_shift : comment? (s.shift n) = (comment? s).map (LineForm.shift n) := by
  unfold comment?
  rw [Span.trimStart_shift, Span.chars_shift]
  split
  · simp only [Span.drop_shift, Span.trimEnd_shift, plainText?_shift, Option.map_map]
    rfl
  · rfl

theorem configuredLabel?_shift (labels : GlobalLabels) :
    configuredLabel? labels (s.shift n) = (configuredLabel? labels s).map (LineForm.shift n) := by
  unfold configuredLabel?
  rw [heading?_shift]
  cases heading? s with
  | none => rfl
  | some pair =>
    obtain ⟨head, body⟩ := pair
    have htext : (head.shift n).text = head.text := rfl
    simp only [Option.map_some, Option.bind_eq_bind, Option.bind_some, plainText?_shift,
      Span.chars_shift, htext, Span.capture_shift]
    cases plainText? body with
    | none => rfl
    | some text =>
      simp only [Option.map_some, Option.bind_some]
      split <;> rfl

theorem stageHeader?_shift : stageHeader? (s.shift n) = (stageHeader? s).map (LineForm.shift n) := by
  unfold stageHeader?
  rw [heading?_shift]
  cases heading? s with
  | none => rfl
  | some pair =>
    obtain ⟨head, body⟩ := pair
    simp only [Option.map_some, Option.bind_eq_bind, Option.bind_some, splitId_shift,
      plainText?_shift, Span.chars_shift, Span.capture_shift]
    cases plainText? (splitId body).1 with
    | none => rfl
    | some text =>
      simp only [Option.map_some, Option.bind_some]
      split <;> rfl

theorem dialogue?_shift : dialogue? (s.shift n) = (dialogue? s).map (LineForm.shift n) := by
  unfold dialogue?
  rw [heading?_shift]
  cases heading? s with
  | none => rfl
  | some pair =>
    obtain ⟨head, body⟩ := pair
    simp only [Option.map_some, Option.bind_eq_bind, Option.bind_some, splitId_shift,
      plainText?_shift, Span.chars_shift, Span.capture_shift]
    cases plainText? (splitId body).1 with
    | none => rfl
    | some text =>
      simp only [Option.map_some, Option.bind_some]
      split <;> rfl

theorem narration?_shift : narration? (s.shift n) = (narration? s).map (LineForm.shift n) := by
  unfold narration?
  rw [Span.trimStart_shift, Span.chars_shift]
  split
  · simp only [Span.drop_shift, Span.trim_shift, splitId_shift, plainText?_shift, Option.map_map]
    rfl
  · rfl

theorem classify?_shift (labels : GlobalLabels) {line line' : SourceLine}
    (h : line'.span = line.span.shift n) :
    classify? labels line' = (classify? labels line).map (LineForm.shift n) := by
  simp only [classify?, h, comment?_shift, configuredLabel?_shift, stageHeader?_shift,
    dialogue?_shift, narration?_shift, Option.orElse_eq_orElse, Option.orElse_eq_or]
  cases comment? line.span with
  | some form => rfl
  | none =>
    cases configuredLabel? labels line.span with
    | some form => rfl
    | none =>
      cases stageHeader? line.span with
      | some form => rfl
      | none => cases dialogue? line.span <;> rfl

end LineForm

theorem LineMeaning.ofHeader_shift (n : Nat) (form : Option LineForm) :
    ofHeader (form.map (LineForm.shift n)) = (ofHeader form).shift n := by
  cases form with
  | none => rfl
  | some form => cases form <;> rfl

/-- The meaning of a line that has been moved. -/
theorem SourceLine.meaning_shift (n : Nat) (labels : GlobalLabels) {line line' : SourceLine}
    (h : line'.span = line.span.shift n) :
    line'.meaning labels = (line.meaning labels).shift n := by
  have hchars : line'.text.toList = line.text.toList := congrArg Span.chars h
  have hblank : line'.isBlank = line.isBlank := by
    rw [isBlank, isBlank, hchars]
  unfold meaning
  rw [hblank]
  split
  · rfl
  · rw [LineForm.classify?_shift n labels h]
    cases LineForm.classify? labels line with
    | none => rfl
    | some form =>
      cases form with
      | label label text =>
        have hvalue : (label.shift n).value = label.value := rfl
        simp only [Option.map_some, LineForm.shift, LineMeaning.ofForm, hvalue, h,
          LineForm.stageHeader?_shift, LineMeaning.ofHeader_shift]
        cases Field.ofLabel? (lowercase label.value) with
        | some field => rfl
        | none =>
          dsimp only
          split <;> rfl
      | _ => rfl

/-- Meanings with the same texts, wherever these stand. -/
inductive LineMeaning.SameText : LineMeaning → LineMeaning → Prop where
  | blank : SameText .blank .blank
  | comment {text text' : Capture} (ht : text'.value = text.value) :
      SameText (.comment text) (.comment text')
  | field {f : Field} {label label' text text' : Capture} (ht : text'.value = text.value) :
      SameText (.field f label text) (.field f label' text')
  | header {name name' : Capture} {id id' : Option Capture} (hn : name'.value = name.value)
      (hi : id'.map Capture.value = id.map Capture.value) :
      SameText (.header name id) (.header name' id')
  | element {speaker speaker' : Option Capture} {text text' : Capture} {id id' : Option Capture}
      (hs : speaker'.map Capture.value = speaker.map Capture.value) (ht : text'.value = text.value)
      (hi : id'.map Capture.value = id.map Capture.value) :
      SameText (.element speaker text id) (.element speaker' text' id')
  | other : SameText .other .other

theorem Capture.map_value_shift (n : Nat) (c : Option Capture) :
    (c.map (·.shift n)).map Capture.value = c.map Capture.value := by
  rw [Option.map_map]
  rfl

theorem LineMeaning.sameText_shift (n n' : Nat) (m : LineMeaning) :
    SameText (m.shift n) (m.shift n') := by
  have hmap : ∀ c : Option Capture,
      (c.map (·.shift n')).map Capture.value = (c.map (·.shift n)).map Capture.value :=
    fun c => (Capture.map_value_shift n' c).trans (Capture.map_value_shift n c).symm
  cases m with
  | blank => exact .blank
  | comment text => exact .comment rfl
  | field f label text => exact .field rfl
  | header name id => exact .header rfl (hmap id)
  | element speaker text id => exact .element (hmap speaker) rfl (hmap id)
  | other => exact .other

/-- Lines with one text mean the same, but for the ranges. -/
theorem SourceLine.meaning_sameText (labels : GlobalLabels) {line line' : SourceLine}
    (h : line'.text = line.text) :
    (line.meaning labels).SameText (line'.meaning labels) := by
  let start : SourceLine := { index := 0, range := { start := 0, stop := 0 }, text := line.text }
  have hspan : ∀ l : SourceLine, l.text = line.text → l.span = start.span.shift l.range.start := by
    intro l hl
    simp only [span, Span.shift, hl, start, Nat.zero_add]
  rw [meaning_shift _ labels (hspan line rfl), meaning_shift _ labels (hspan line' h)]
  exact LineMeaning.sameText_shift _ _ (start.meaning labels)

/-! ## Words -/

def Word.shift (n : Nat) (w : Word) : Word :=
  { w with range := w.range.shift n }

theorem Text.wordAt_shift (n base : Nat) (cs : List Char) :
    wordAt (base + n) cs = (wordAt base cs).map (·.shift n) := by
  unfold wordAt
  split
  · simp only [List.map_cons, List.map_nil, Word.shift, TextRange.shift]
    congr 3
    omega
  · rfl

theorem Text.words_shift (n base : Nat) (cs : List Char) :
    words (base + n) cs = (words base cs).map (·.shift n) := by
  fun_induction words base cs with
  | case1 => rw [words, List.map_nil]
  | case2 base c cs hc word ih =>
    have hbase : base + n + byteLength word = base + byteLength word + n := by omega
    rw [words, if_pos hc, List.map_append, ← wordAt_shift, ← ih, ← hbase]
  | case3 base c cs hc ih =>
    have hbase : base + n + c.utf8Size = base + c.utf8Size + n := by omega
    rw [words, if_neg hc, hbase, ih]

/-- The texts of the words do not depend on where they stand. -/
theorem Text.map_text_words (base base' : Nat) (cs : List Char) :
    (words base' cs).map Word.text = (words base cs).map Word.text := by
  have h : ∀ b, (words b cs).map Word.text = (words 0 cs).map Word.text := by
    intro b
    have hshift := words_shift b 0 cs
    rw [Nat.zero_add] at hshift
    rw [hshift, List.map_map]
    rfl
  rw [h base', h base]

end Comfort
