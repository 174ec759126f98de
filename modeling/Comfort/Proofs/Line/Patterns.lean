import Comfort.Proofs.Line.Headings

/-!
The line grammar as regular expressions.

Each kind of line has a pattern, and a line has the kind of the first pattern that matches it.
-/

namespace Comfort

open Text (leading trim trimStart trimEnd)

namespace Regex

def comment : Regex :=
  toEnd [blanks, char '/', char '/', maybe (one Text.isBlank), text, blanks]

def label : Regex :=
  toEnd [blanks, group .label (heading LineForm.isLabelChar), blanks, char ':', blanks, text,
    blanks]

/-- A heading in front of a body that can have an id. -/
def headed (name : Group) (a : Regex) : Regex :=
  toEnd [blanks, group name a, blanks, char ':', blanks, text, maybe mark, blanks]

def narration : Regex :=
  toEnd [blanks, char '>', blanks, text, maybe mark, blanks]

/-! ## What the patterns capture -/

variable {line : SourceLine} {before after piece : List Char}
  {id : Option (List Char × List Char)}

theorem newline_not_mem_of_trimStart {rest : List Char} (sign : List Char)
    (hn : '\n' ∉ line.text.toList) (hline : trimStart line.text.toList = sign ++ rest) :
    '\n' ∉ rest := by
  intro hm
  have hmem : '\n' ∈ trimStart line.text.toList := by
    rw [hline]
    exact List.mem_append_right _ hm
  exact hn ((List.dropWhile_suffix Text.isBlank).mem hmem)

theorem newline_not_mem_of_headed (hn : '\n' ∉ line.text.toList) (h : Headed line before after) :
    '\n' ∉ after := by
  have hline : trimStart line.text.toList = (before ++ [':']) ++ after := by
    rw [h.eq, List.append_cons]
  exact newline_not_mem_of_trimStart _ hn hline

theorem captures?_comment {gap text : List Char} (hn : '\n' ∉ line.text.toList)
    (hline : trimStart line.text.toList = '/' :: '/' :: (gap ++ text))
    (hgap : gap = (leading (gap ++ text)).take 1) :
    comment.captures? line.span
      = some [(.text,
          line.cut (leading line.text.toList ++ '/' :: '/' :: gap) (trimEnd text))] := by
  have hchars : line.span.trimStart.chars = '/' :: '/' :: (gap ++ text) := hline
  have hplain : '\n' ∉ text :=
    newline_not_mem_of_trimStart ('/' :: '/' :: gap) hn hline
  have hplace : line.span.trimStart.start + Text.byteLength ['/'] + Text.byteLength ['/']
        + Text.byteLength gap
      = line.range.start + Text.byteLength (leading line.text.toList ++ '/' :: '/' :: gap) := by
    show line.range.start + Text.byteLength (leading line.text.toList) + _ + _ + _ = _
    simp [Nat.add_assoc]
  -- The pattern of the text, behind the blank that may have been dropped.
  have htext : (toEnd [Regex.text, blanks]).captures?
      { start := line.span.trimStart.start + Text.byteLength ['/'] + Text.byteLength ['/']
          + Text.byteLength gap,
        chars := text }
      = some [(.text,
          line.cut (leading line.text.toList ++ '/' :: '/' :: gap) (trimEnd text))] := by
    rw [captures?_text_toEnd hplain, hplace]
    rfl
  show (seq blanks (seq (char '/') (seq (char '/')
    (seq (maybe (one Text.isBlank)) (toEnd [Regex.text, blanks]))))).captures? line.span = _
  rw [captures?_seq_blanks fun t ht => captures?_seq_char_of_blank (by decide) ht,
    captures?_seq_char hchars, captures?_seq_char rfl, captures?_seq_maybe]
  have hlength := LineForm.length_gap hgap
  by_cases hblank : (gap ++ text).head?.any Text.isBlank = true
  · rw [if_pos hblank] at hlength
    rw [captures?_seq_one hblank, hlength, Span.drop_of_eq rfl, htext]
    rfl
  · rw [if_neg hblank] at hlength
    cases List.length_eq_zero_iff.1 hlength.symm
    rw [captures?_seq_one_of_not (Bool.eq_false_iff.2 hblank)]
    exact htext

theorem captures?_comment_of_not (h : ∀ rest, trimStart line.text.toList ≠ '/' :: '/' :: rest) :
    comment.captures? line.span = none := by
  show (seq blanks (seq (char '/') (seq (char '/') _))).captures? line.span = _
  rw [captures?_seq_blanks fun t ht => captures?_seq_char_of_blank (by decide) ht]
  cases hchars : line.span.trimStart.chars with
  | nil => exact captures?_seq_char_of_ne (by rw [hchars]; exact nofun)
  | cons c rest =>
    by_cases hc : c = '/'
    · cases hc
      rw [captures?_seq_char hchars]
      refine captures?_seq_char_of_ne fun hhead => ?_
      obtain ⟨tail, rfl⟩ := List.head?_eq_some_iff.1 hhead
      exact h tail hchars
    · refine captures?_seq_char_of_ne fun hhead => hc ?_
      rw [hchars] at hhead
      exact Option.some.inj hhead

/-- What the pattern of a body without an id captures in a line. -/
theorem captures?_plain_body_of_line (sign : List Char) (hn : '\n' ∉ after) :
    (toEnd [blanks, text, blanks]).captures?
        { start := line.range.start + Text.byteLength (leading line.text.toList)
            + Text.byteLength sign,
          chars := after }
      = some [(.text, line.cutBody sign after [] (trim after))] := by
  rw [captures?_body hn, SourceLine.trim_behind, ← SourceLine.capture_body]
  rfl

/-- What the pattern of a body with an id captures in a line. -/
theorem captures?_body_of_line (sign : List Char) (hn : '\n' ∉ after)
    (hid : SplitsId (trim after) piece id) :
    (toEnd [blanks, text, maybe mark, blanks]).captures?
        { start := line.range.start + Text.byteLength (leading line.text.toList)
            + Text.byteLength sign,
          chars := after }
      = some ((.text, line.cutBody sign after [] piece) ::
          (id.map fun (front, id) => (Group.id, line.cutBody sign after front id)).toList) := by
  have htrim := congrArg Span.start (SourceLine.trim_behind line sign after)
  have hstart : Span.start (Span.trimStart
      { start := line.range.start + Text.byteLength (leading line.text.toList)
          + Text.byteLength sign,
        chars := after })
      = (line.body sign after).start := htrim
  have htext := SourceLine.capture_body line sign after piece
  rw [captures?_body_mark hn hid, heldId]
  simp only [hstart, SourceLine.capture_body_behind]
  rw [← htext]

end Regex

/-! ## Patterns of lines -/

/-- A pattern, and the form of a line that it matches. -/
structure Pattern where
  regex : Regex
  form : (Group → Option Capture) → Option LineForm

namespace Pattern

def read? (p : Pattern) (line : SourceLine) : Option LineForm := do
  let captures ← p.regex.captures? line.span
  p.form fun name => captures.lookup name

def comment : Pattern :=
  { regex := Regex.comment
    form := fun held => do
      let text ← held .text
      some (.comment text) }

/-- The label must be a configured one. -/
def label (labels : GlobalLabels) : Pattern :=
  { regex := Regex.label
    form := fun held => do
      let label ← held .label
      let text ← held .text
      if labels.contains label.value then some (.label label text) else none }

def headed (name : Group) (a : Regex)
    (form : Capture → Capture → Option Capture → LineForm) : Pattern :=
  { regex := Regex.headed name a
    form := fun held => do
      let head ← held name
      let text ← held .text
      some (form head text (held .id)) }

def stage : Pattern :=
  headed .label Regex.stageWord .stage

def dialogue : Pattern :=
  headed .speaker (Regex.heading LineForm.isSpeakerChar) .dialogue

def narration : Pattern :=
  { regex := Regex.narration
    form := fun held => do
      let text ← held .text
      some (.narration text (held .id)) }

/-- The patterns in the order in which they are tried. -/
def all (labels : GlobalLabels) : List Pattern :=
  [comment, label labels, stage, dialogue, narration]

variable {labels : GlobalLabels} {line : SourceLine}

theorem read?_comment (hn : '\n' ∉ line.text.toList) :
    comment.read? line = LineForm.comment? line.span := by
  by_cases h : ∃ rest, trimStart line.text.toList = '/' :: '/' :: rest
  · obtain ⟨rest, hline⟩ := h
    obtain ⟨gap, text, rfl, hgap⟩ := LineForm.exists_gap rest
    have hrule := (LineForm.comment?_iff hn hline hgap).2 rfl
    have hcaptures : comment.regex.captures? line.span = _ :=
      Regex.captures?_comment hn hline hgap
    rw [hrule, read?, hcaptures]
    rfl
  · have hcaptures : comment.regex.captures? line.span = none :=
      Regex.captures?_comment_of_not fun rest hline => h ⟨rest, hline⟩
    have hrule : LineForm.comment? line.span = none :=
      Option.eq_none_iff_forall_ne_some.2 fun form hf => h (LineForm.head?_of_comment? hf)
    rw [hrule, read?, hcaptures]
    rfl

theorem read?_label (hn : '\n' ∉ line.text.toList) :
    (label labels).read? line = LineForm.configuredLabel? labels line.span := by
  have hfinds : Regex.Finds (Regex.heading LineForm.isLabelChar) _ :=
    Regex.finds_heading (fun c hc => (isLabelChar_iff c).2 (.inl hc)) (by decide)
  rcases LineForm.exists_headed line with ⟨before, after, h⟩ | h
  · have hafter := Regex.newline_not_mem_of_headed hn h
    have hcaptures : (label labels).regex.captures? line.span = _ :=
      Regex.captures?_of_headed hfinds h
        (Regex.captures?_plain_body_of_line (before ++ [':']) hafter)
    refine Option.ext fun form => ?_
    rw [LineForm.configuredLabel?_iff hn h, ← isLabel_iff, Bool.and_eq_true, read?, hcaptures]
    by_cases hhead : LineForm.isHeading LineForm.isLabelChar (trimEnd before) = true
    · rw [if_pos hhead]
      show (if labels.contains (String.ofList (trimEnd before)) = true then
        some (LineForm.label _ _) else none) = some form ↔ _
      rw [Option.ite_none_right_eq_some, Option.some.injEq, and_iff_right hhead]
      exact and_congr_right fun _ => eq_comm
    · rw [if_neg hhead]
      exact ⟨nofun, fun hform => absurd hform.1.1 hhead⟩
  · have hcaptures : (label labels).regex.captures? line.span = none :=
      Regex.captures?_of_not_headed hfinds h
    rw [LineForm.configuredLabel?, LineForm.heading?_of_no_colon h, read?, hcaptures]
    rfl

/-- What is read from a line with a colon, whose heading may be one of those that are looked for. -/
theorem read?_headed {name : Group} {a : Regex} {q : List Char → Bool} {before after text : List Char}
    {id : Option (List Char × List Char)} (hname : name = .label ∨ name = .speaker)
    (hf : Regex.Finds a q) (form : Capture → Capture → Option Capture → LineForm)
    (hn : '\n' ∉ line.text.toList) (h : Headed line before after)
    (hid : SplitsId (trim after) text id) :
    (headed name a form).read? line
      = if q (trimEnd before) = true then
          some (form (line.cutHead before) (line.cutBody (before ++ [':']) after [] text)
            (id.map fun (front, id) => line.cutBody (before ++ [':']) after front id))
        else none := by
  have hafter := Regex.newline_not_mem_of_headed hn h
  have hcaptures : (headed name a form).regex.captures? line.span = _ :=
    Regex.captures?_of_headed hf h (Regex.captures?_body_of_line (before ++ [':']) hafter hid)
  rw [read?, hcaptures]
  by_cases hhead : q (trimEnd before) = true
  · rw [if_pos hhead, if_pos hhead]
    rcases hname with rfl | rfl <;> cases id <;> rfl
  · rw [if_neg hhead, if_neg hhead]
    rfl

theorem read?_headed_of_no_colon {name : Group} {a : Regex} {q : List Char → Bool}
    (hf : Regex.Finds a q) (form : Capture → Capture → Option Capture → LineForm)
    (h : ':' ∉ trimStart line.text.toList) : (headed name a form).read? line = none := by
  have hcaptures : (headed name a form).regex.captures? line.span = none :=
    Regex.captures?_of_not_headed hf h
  rw [read?, hcaptures]
  rfl

theorem read?_stage (hn : '\n' ∉ line.text.toList) :
    stage.read? line = LineForm.stageHeader? line.span := by
  rcases LineForm.exists_headed line with ⟨before, after, h⟩ | h
  · obtain ⟨text, id, hid⟩ := exists_splitsId (trim after)
    refine Option.ext fun form => ?_
    rw [stage, read?_headed (.inl rfl) Regex.finds_stageWord _ hn h hid,
      LineForm.stageHeader?_iff hn h hid, ← isStage_iff, Option.ite_none_right_eq_some,
      Option.some.injEq]
    exact and_congr_right fun _ => eq_comm
  · rw [stage, read?_headed_of_no_colon Regex.finds_stageWord _ h, LineForm.stageHeader?,
      LineForm.heading?_of_no_colon h]
    rfl

theorem read?_dialogue (hn : '\n' ∉ line.text.toList) :
    dialogue.read? line = LineForm.dialogue? line.span := by
  have hfinds : Regex.Finds (Regex.heading LineForm.isSpeakerChar) _ :=
    Regex.finds_heading (fun c hc => by simp [LineForm.isSpeakerChar, Char.isAlphanum, hc])
      (by decide)
  rcases LineForm.exists_headed line with ⟨before, after, h⟩ | h
  · obtain ⟨text, id, hid⟩ := exists_splitsId (trim after)
    refine Option.ext fun form => ?_
    rw [dialogue, read?_headed (.inr rfl) hfinds _ hn h hid, LineForm.dialogue?_iff hn h hid,
      IsSpeaker, ← isHeading_iff isSpeakerChar_iff, Option.ite_none_right_eq_some,
      Option.some.injEq]
    exact and_congr_right fun _ => eq_comm
  · rw [dialogue, read?_headed_of_no_colon hfinds _ h, LineForm.dialogue?,
      LineForm.heading?_of_no_colon h]
    rfl

theorem form_narration (text : Capture) (id : Option (List Char × List Char))
    (f : List Char → List Char → Capture) :
    (narration.form fun name => List.lookup name ((Group.text, text) ::
        (id.map fun (front, id) => (Group.id, f front id)).toList))
      = some (.narration text (id.map fun (front, id) => f front id)) := by
  cases id <;> rfl

theorem read?_narration (hn : '\n' ∉ line.text.toList) :
    narration.read? line = LineForm.narration? line.span := by
  have hsolid : ∀ t : Span, t.chars.head?.any Text.isBlank = true →
      (Regex.seq (Regex.char '>') (Regex.toEnd
        [Regex.blanks, Regex.text, .maybe Regex.mark, Regex.blanks])).captures? t = none :=
    fun t ht => Regex.captures?_seq_char_of_blank (by decide) ht
  have hlead : narration.regex.captures? line.span = _ :=
    Regex.captures?_seq_blanks hsolid line.span
  by_cases h : ∃ after, trimStart line.text.toList = '>' :: after
  · obtain ⟨after, hline⟩ := h
    have hafter : '\n' ∉ after := Regex.newline_not_mem_of_trimStart ['>'] hn hline
    obtain ⟨text, id, hid⟩ := exists_splitsId (trim after)
    have hchars : line.span.trimStart.chars = '>' :: after := hline
    have hbody : (Regex.toEnd [Regex.blanks, Regex.text, .maybe Regex.mark, Regex.blanks]).captures?
        { start := line.span.trimStart.start + Text.byteLength ['>'], chars := after } = _ :=
      Regex.captures?_body_of_line ['>'] hafter hid
    refine Option.ext fun form => ?_
    rw [LineForm.narration?_iff hn hline hid, read?, hlead, Regex.captures?_seq_char hchars, hbody,
      Option.bind_eq_bind, Option.bind_some, form_narration, Option.some.injEq]
    exact eq_comm
  · have hrule : LineForm.narration? line.span = none :=
      Option.eq_none_iff_forall_ne_some.2 fun form hf =>
        h (List.head?_eq_some_iff.1 (LineForm.head?_of_narration? hf))
    have hcaptures := Regex.captures?_seq_char_of_ne (c := '>') (s := line.span.trimStart)
      (b := Regex.toEnd [Regex.blanks, Regex.text, .maybe Regex.mark, Regex.blanks])
      fun hhead => h (List.head?_eq_some_iff.1 hhead)
    rw [hrule, read?, hlead, hcaptures]
    rfl

end Pattern

namespace LineForm

variable {labels : GlobalLabels} {line : SourceLine}

/-- In a line without a line feed the rules of the grammar find the first pattern that matches, and
what they find is what the productions say. -/
theorem recognises_productions (hn : '\n' ∉ line.text.toList) :
    (Pattern.all labels).findSome? (·.read? line) = classify? labels line ∧
      ∀ form, classify? labels line = some form ↔ Production labels line form := by
  refine ⟨?_, fun form => classify?_eq_some hn⟩
  simp only [Pattern.all, List.findSome?_cons, List.findSome?_nil, Pattern.read?_comment hn,
    Pattern.read?_label hn, Pattern.read?_stage hn, Pattern.read?_dialogue hn,
    Pattern.read?_narration hn, classify?]
  cases comment? line.span <;> cases configuredLabel? labels line.span <;>
    cases stageHeader? line.span <;> cases dialogue? line.span <;>
    cases narration? line.span <;> rfl

/-- A header with a long s, letters of two bytes, and an id behind another mark. -/
def sproutLine : SourceLine :=
  { index := 2, range := { start := 40, stop := 66 }, text := " ſTage : Été # 1 #s_1 " }

def sproutForm : LineForm :=
  .stage ⟨"ſTage", 41, 47⟩ ⟨"Été # 1", 50, 59⟩ (some ⟨"s_1", 61, 64⟩)

theorem recognises_productions_sprout :
    (Pattern.all .default).findSome? (·.read? sproutLine) = some sproutForm ∧
      Production .default sproutLine sproutForm := by
  have hn : '\n' ∉ sproutLine.text.toList := by decide
  have hrules : classify? .default sproutLine = some sproutForm := by decide +kernel
  have h := @recognises_productions .default sproutLine hn
  exact ⟨h.1.trans hrules, (h.2 sproutForm).1 hrules⟩

end LineForm
end Comfort
