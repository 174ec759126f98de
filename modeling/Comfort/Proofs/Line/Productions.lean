import Comfort.Proofs.Line.Annotate
import Comfort.Proofs.Line.Captures

/-!
The productions of the line grammar.

`Production` says what each kind of line looks like, and which pieces of it are captured, without a
word on how they are found.  `classify?_eq_some` says that the rules find them, in lines that have
no line feed in them.
-/

namespace Comfort
namespace Text

/-- The blanks that `trimStart` drops. -/
def leading (cs : List Char) : List Char :=
  cs.takeWhile isBlank

theorem leading_append_trimStart (cs : List Char) : leading cs ++ trimStart cs = cs :=
  List.takeWhile_append_dropWhile

end Text

open Text (IsId leading trim trimStart trimEnd)

/-! ## Parts of a line -/

/-- The piece of a line that stands behind `before`. -/
def SourceLine.cut (line : SourceLine) (before piece : List Char) : Capture :=
  Span.capture { start := line.range.start + Text.byteLength before, chars := piece }

/-- What follows the last `#` of a trimmed body is an id if it can be one, and the text is then what
precedes it.  With the id comes what stands in front of it. -/
inductive SplitsId (body : List Char) : List Char → Option (List Char × List Char) → Prop where
  | written {front id : List Char} (hbody : body = front ++ '#' :: id) (hid : IsId id) :
      SplitsId body (trimEnd front) (some (front ++ ['#'], id))
  | absent (h : ∀ front id, body = front ++ '#' :: id → ¬ IsId id) : SplitsId body body none

/-- A heading begins with an ASCII letter. -/
structure IsHeading (p : Char → Prop) (head : List Char) : Prop where
  letter : ∃ c, head.head? = some c ∧ c.isAlpha = true
  chars : ∀ c ∈ head, p c

structure IsLabel (labels : GlobalLabels) (head : List Char) : Prop
    extends IsHeading (fun c => c.isAlpha = true ∨ c = ' ') head where
  configured : lowercase (String.ofList head) ∈ labels.keys

/-- The word `stage`, in any case.  The long s counts as an s. -/
def IsStage (head : List Char) : Prop :=
  head.map (fun c => if c = 'ſ' then 's' else c.toLower) = ['s', 't', 'a', 'g', 'e']

def IsSpeaker (head : List Char) : Prop :=
  IsHeading (fun c => c.isAlphanum = true ∨ c = '_' ∨ c = ' ') head

/-- The first colon of a line stands between `before` and `after`, not counting the blanks at the
front of the line. -/
structure Headed (line : SourceLine) (before after : List Char) : Prop where
  eq : trimStart line.text.toList = before ++ ':' :: after
  first : ':' ∉ before

namespace SourceLine

variable (line : SourceLine)

/-- What stands before the first colon, without the blanks around it. -/
def cutHead (before : List Char) : Capture :=
  line.cut (leading line.text.toList) (trimEnd before)

/-- A piece of the body, which is what follows `mark` without the blanks around it.  The piece
stands behind `inner` there. -/
def cutBody (mark after inner piece : List Char) : Capture :=
  line.cut (leading line.text.toList ++ mark ++ leading after ++ inner) piece

end SourceLine

/-- What the form of a line can be.  A line that begins as a comment or as a narration has no
heading of the other kinds, and among those a label goes before a stage and a stage before a
dialogue. -/
inductive Production (labels : GlobalLabels) (line : SourceLine) : LineForm → Prop where
  | comment {gap text : List Char}
      (hline : trimStart line.text.toList = '/' :: '/' :: (gap ++ text))
      (hgap : gap = (leading (gap ++ text)).take 1) :
      Production labels line
        (.comment (line.cut (leading line.text.toList ++ '/' :: '/' :: gap) (trimEnd text)))
  | label {before after : List Char} (hline : Headed line before after)
      (hhead : IsLabel labels (trimEnd before)) :
      Production labels line
        (.label (line.cutHead before) (line.cutBody (before ++ [':']) after [] (trim after)))
  | stage {before after text : List Char} {id : Option (List Char × List Char)}
      (hline : Headed line before after) (hlabel : ¬ IsLabel labels (trimEnd before))
      (hhead : IsStage (trimEnd before)) (hid : SplitsId (trim after) text id) :
      Production labels line
        (.stage (line.cutHead before) (line.cutBody (before ++ [':']) after [] text)
          (id.map fun (front, id) => line.cutBody (before ++ [':']) after front id))
  | dialogue {before after text : List Char} {id : Option (List Char × List Char)}
      (hline : Headed line before after) (hlabel : ¬ IsLabel labels (trimEnd before))
      (hstage : ¬ IsStage (trimEnd before)) (hhead : IsSpeaker (trimEnd before))
      (hid : SplitsId (trim after) text id) :
      Production labels line
        (.dialogue (line.cutHead before) (line.cutBody (before ++ [':']) after [] text)
          (id.map fun (front, id) => line.cutBody (before ++ [':']) after front id))
  | narration {after text : List Char} {id : Option (List Char × List Char)}
      (hline : trimStart line.text.toList = '>' :: after) (hid : SplitsId (trim after) text id) :
      Production labels line
        (.narration (line.cutBody ['>'] after [] text)
          (id.map fun (front, id) => line.cutBody ['>'] after front id))

/-! ## Headings -/

theorem isBlank_of_isAlpha {c : Char} (h : c.isAlpha = true) : Text.isBlank c = false := by
  have hn : (65 ≤ c.toNat ∧ c.toNat ≤ 90) ∨ (97 ≤ c.toNat ∧ c.toNat ≤ 122) := by
    rcases Bool.or_eq_true_iff.1 h with hu | hl
    · exact .inl (LineForm.bounds_of_isUpper hu)
    · exact .inr (LineForm.bounds_of_isLower hl)
  simp only [Text.isBlank, Bool.or_eq_false_iff, Bool.and_eq_false_iff, decide_eq_false_iff_not,
    beq_eq_false_iff_ne]
  omega

theorem isHeading_iff {p : Char → Bool} {q : Char → Prop} (h : ∀ c, p c = true ↔ q c)
    {head : List Char} : LineForm.isHeading p head = true ↔ IsHeading q head := by
  rw [LineForm.isHeading, Bool.and_eq_true, Option.any_eq_true, List.all_eq_true]
  constructor
  · rintro ⟨hletter, hchars⟩
    exact ⟨hletter, fun c hc => (h c).1 (hchars c hc)⟩
  · rintro ⟨hletter, hchars⟩
    exact ⟨hletter, fun c hc => (h c).2 (hchars c hc)⟩

theorem isLabelChar_iff (c : Char) :
    LineForm.isLabelChar c = true ↔ c.isAlpha = true ∨ c = ' ' := by
  rw [LineForm.isLabelChar, Bool.or_eq_true, beq_iff_eq]

theorem isSpeakerChar_iff (c : Char) :
    LineForm.isSpeakerChar c = true ↔ c.isAlphanum = true ∨ c = '_' ∨ c = ' ' := by
  rw [LineForm.isSpeakerChar, Bool.or_eq_true, Bool.or_eq_true, beq_iff_eq, beq_iff_eq, or_assoc]

/-- A heading is trimmed at the front, as it begins with a letter. -/
theorem IsHeading.trimStart {p : Char → Prop} {head : List Char} (h : IsHeading p head) :
    trimStart head = head := by
  obtain ⟨c, hc, halpha⟩ := h.letter
  cases head with
  | nil => cases hc
  | cons d head =>
    cases hc
    exact List.dropWhile_cons_of_neg (by simp [isBlank_of_isAlpha halpha])

theorem isLabel_iff {labels : GlobalLabels} {before : List Char} :
    (LineForm.isHeading LineForm.isLabelChar (trimEnd before)
      && labels.contains (String.ofList (trimEnd before))) = true ↔
      IsLabel labels (trimEnd before) := by
  have key (h : IsHeading (fun c => c.isAlpha = true ∨ c = ' ') (trimEnd before)) :
      labelKey (String.ofList (trimEnd before)) = lowercase (String.ofList (trimEnd before)) := by
    have htrim : trim (trimEnd before) = trimEnd before := by
      rw [trim, h.trimStart]
      exact List.rdropWhile_idempotent Text.isBlank before
    rw [labelKey, trimmed, String.toList_ofList, htrim]
  rw [Bool.and_eq_true, isHeading_iff isLabelChar_iff, GlobalLabels.contains,
    List.contains_iff_mem]
  constructor
  · rintro ⟨hhead, hkey⟩
    exact ⟨hhead, by rw [← key hhead]; exact hkey⟩
  · rintro ⟨hhead, hkey⟩
    exact ⟨hhead, by rw [key hhead]; exact hkey⟩

theorem isStage_iff {head : List Char} : LineForm.isStageWord head = true ↔ IsStage head := by
  have hother (c d : Char) (hd : d ≠ 's') (hd' : d ≠ 'ſ') :
      (if c = 'ſ' then 's' else c.toLower) = d ↔ c.toLower = d := by
    split
    · next hc =>
      rw [hc]
      exact ⟨fun h => absurd h.symm hd, fun h => absurd h.symm hd'⟩
    · rfl
  have hs (c : Char) :
      (if c = 'ſ' then 's' else c.toLower) = 's' ↔ c.toLower = 's' ∨ c = 'ſ' := by
    split
    · next hc => exact ⟨fun _ => .inr hc, fun _ => rfl⟩
    · next hc => exact ⟨.inl, fun h => h.resolve_right hc⟩
  unfold LineForm.isStageWord IsStage
  split
  · next a b c d e =>
    simp only [List.map_cons, List.map_nil, List.cons.injEq, and_true, hs,
      hother b 't' (by decide) (by decide), hother c 'a' (by decide) (by decide),
      hother d 'g' (by decide) (by decide), hother e 'e' (by decide) (by decide),
      Bool.and_eq_true, Bool.or_eq_true, beq_iff_eq, and_assoc]
  · next hne =>
    refine ⟨nofun, fun h => ?_⟩
    have hlength := congrArg List.length h
    rw [List.length_map] at hlength
    match head, hlength with
    | [a, b, c, d, e], _ => exact absurd rfl (hne a b c d e)

/-! ## Ids -/

theorem exists_splitsId (body : List Char) : ∃ text id, SplitsId body text id := by
  by_cases h : ∃ front id, body = front ++ '#' :: id ∧ IsId id
  · obtain ⟨front, id, hbody, hid⟩ := h
    exact ⟨_, _, .written hbody hid⟩
  · exact ⟨_, _, .absent fun front id hbody hid => h ⟨front, id, hbody, hid⟩⟩

theorem exists_eq_append_cons_last {c : Char} {cs : List Char} (h : c ∈ cs) :
    ∃ a b, cs = a ++ c :: b ∧ c ∉ b := by
  obtain ⟨a, b, heq, ha⟩ := List.eq_append_cons_of_mem (List.mem_reverse.2 h)
  refine ⟨b.reverse, a.reverse, ?_, fun hc => ha (List.mem_reverse.1 hc)⟩
  rw [← List.reverse_reverse cs, heq]
  simp

theorem splitId_of_splitsId {body : Span} {text : List Char} {id : Option (List Char × List Char)}
    (h : SplitsId body.chars text id) :
    LineForm.splitId body
      = ({ body with chars := text },
          id.map fun (front, id) =>
            Span.capture { start := body.start + Text.byteLength front, chars := id }) := by
  unfold LineForm.splitId
  cases h with
  | written hbody hid =>
    rw [Span.splitLast?_of_eq hbody (hid.not_mem (by decide))]
    dsimp only
    rw [if_pos (by simpa [hid.ne_nil] using hid.chars)]
    rfl
  | absent h =>
    by_cases hmark : '#' ∈ body.chars
    · obtain ⟨front, id, hbody, hid⟩ := exists_eq_append_cons_last hmark
      have hcond : ¬ (!id.isEmpty && id.all LineForm.isIdChar) = true := by
        intro hcond
        rw [Bool.and_eq_true, Bool.not_eq_true', List.isEmpty_eq_false_iff,
          List.all_eq_true] at hcond
        exact h front id hbody ⟨hcond.1, hcond.2⟩
      rw [Span.splitLast?_of_eq hbody hid]
      dsimp only
      rw [if_neg hcond]
      rfl
    · rw [Span.splitLast?_of_notMem hmark]
      rfl

/-! ## The rules -/

namespace SourceLine

/-- The body of a line, which is what follows `mark` without the blanks around it. -/
def body (line : SourceLine) (mark after : List Char) : Span :=
  { start := line.range.start
      + Text.byteLength (leading line.text.toList ++ mark ++ leading after)
    chars := trim after }

theorem trim_behind (line : SourceLine) (mark after : List Char) :
    Span.trim
        { start := line.range.start + Text.byteLength (leading line.text.toList)
            + Text.byteLength mark,
          chars := after }
      = line.body mark after := by
  simp only [body, Text.byteLength_append, ← Nat.add_assoc]
  rfl

theorem capture_body (line : SourceLine) (mark after piece : List Char) :
    Span.capture { line.body mark after with chars := piece }
      = line.cutBody mark after [] piece := by
  rw [cutBody, List.append_nil]
  rfl

theorem capture_body_behind (line : SourceLine) (mark after inner piece : List Char) :
    Span.capture
        { start := (line.body mark after).start + Text.byteLength inner, chars := piece }
      = line.cutBody mark after inner piece := by
  rw [cutBody, cut, Text.byteLength_append _ inner, ← Nat.add_assoc]
  rfl

end SourceLine

namespace LineForm

variable {labels : GlobalLabels} {line : SourceLine} {before after text : List Char}
  {id : Option (List Char × List Char)} {form : LineForm}

theorem heading?_of_headed (h : Headed line before after) :
    heading? line.span
      = some ({ start := line.range.start + Text.byteLength (leading line.text.toList),
                chars := trimEnd before }, line.body (before ++ [':']) after) := by
  rw [heading?, Span.splitFirst?_of_eq h.eq h.first, Option.map_some, ← SourceLine.trim_behind]
  rfl

theorem heading?_of_no_colon (h : ':' ∉ trimStart line.text.toList) :
    heading? line.span = none := by
  rw [heading?, Span.splitFirst?_of_notMem h]
  rfl

theorem exists_headed (line : SourceLine) :
    (∃ before after, Headed line before after) ∨ ':' ∉ trimStart line.text.toList := by
  by_cases h : ':' ∈ trimStart line.text.toList
  · obtain ⟨before, after, heq, hfirst⟩ := List.eq_append_cons_of_mem h
    exact .inl ⟨before, after, heq, hfirst⟩
  · exact .inr h

/-- In a line without a line feed every piece is plain text. -/
theorem plainText?_of_holds {s t : Span} (hn : '\n' ∉ s.chars) (h : s.Holds t) :
    plainText? t = some t.capture := by
  obtain ⟨a, b, hchars, -⟩ := h
  refine plainText?_eq_some.2 ⟨?_, rfl⟩
  have hpiece : '\n' ∉ t.chars := fun hm => hn (by simp [hchars, hm])
  simpa using hpiece

/-- The text and the id of a body. -/
theorem plainText?_splitId_of_splitsId {mark : List Char} (hn : '\n' ∉ line.text.toList)
    (hbody : line.span.Holds (line.body mark after)) (hid : SplitsId (trim after) text id) :
    plainText? (splitId (line.body mark after)).1 = some (line.cutBody mark after [] text) ∧
      (splitId (line.body mark after)).2
        = id.map fun (front, id) => line.cutBody mark after front id := by
  have hplain := plainText?_of_holds (s := line.span) hn
    (hbody.trans (holds_splitId (line.body mark after)).1)
  have hsplit := @splitId_of_splitsId (line.body mark after) text id hid
  rw [hplain, hsplit]
  refine ⟨congrArg some (SourceLine.capture_body ..), ?_⟩
  simp only [SourceLine.capture_body_behind]

section Headed

variable (hn : '\n' ∉ line.text.toList) (h : Headed line before after)

include hn h

theorem configuredLabel?_iff :
    configuredLabel? labels line.span = some form ↔
      IsLabel labels (trimEnd before) ∧
        form = .label (line.cutHead before)
          (line.cutBody (before ++ [':']) after [] (trim after)) := by
  have hheading := heading?_of_headed h
  have hplain := plainText?_of_holds (s := line.span) hn (holds_heading? hheading).2
  rw [configuredLabel?, hheading, ← SourceLine.capture_body, ← isLabel_iff]
  simp only [Option.bind_eq_bind, Option.bind_some, hplain, Option.ite_none_right_eq_some,
    Option.some.injEq]
  exact and_congr_right fun _ => eq_comm

theorem stageHeader?_iff (hid : SplitsId (trim after) text id) :
    stageHeader? line.span = some form ↔
      IsStage (trimEnd before) ∧
        form = .stage (line.cutHead before) (line.cutBody (before ++ [':']) after [] text)
          (id.map fun (front, id) => line.cutBody (before ++ [':']) after front id) := by
  have hheading := heading?_of_headed h
  obtain ⟨hplain, hsplit⟩ := plainText?_splitId_of_splitsId hn (holds_heading? hheading).2 hid
  rw [stageHeader?, hheading, ← isStage_iff]
  simp only [Option.bind_eq_bind, Option.bind_some, hplain, hsplit, Option.ite_none_right_eq_some,
    Option.some.injEq]
  exact and_congr_right fun _ => eq_comm

theorem configuredLabel?_eq_none :
    configuredLabel? labels line.span = none ↔ ¬ IsLabel labels (trimEnd before) := by
  rw [Option.eq_none_iff_forall_ne_some]
  constructor
  · intro hnone hhead
    exact hnone _ ((configuredLabel?_iff hn h).2 ⟨hhead, rfl⟩)
  · intro hhead form hform
    exact hhead ((configuredLabel?_iff hn h).1 hform).1

theorem stageHeader?_eq_none : stageHeader? line.span = none ↔ ¬ IsStage (trimEnd before) := by
  obtain ⟨text, id, hid⟩ := exists_splitsId (trim after)
  rw [Option.eq_none_iff_forall_ne_some]
  constructor
  · intro hnone hhead
    exact hnone _ ((stageHeader?_iff hn h hid).2 ⟨hhead, rfl⟩)
  · intro hhead form hform
    exact hhead ((stageHeader?_iff hn h hid).1 hform).1

theorem dialogue?_iff (hid : SplitsId (trim after) text id) :
    dialogue? line.span = some form ↔
      IsSpeaker (trimEnd before) ∧
        form = .dialogue (line.cutHead before) (line.cutBody (before ++ [':']) after [] text)
          (id.map fun (front, id) => line.cutBody (before ++ [':']) after front id) := by
  have hheading := heading?_of_headed h
  obtain ⟨hplain, hsplit⟩ := plainText?_splitId_of_splitsId hn (holds_heading? hheading).2 hid
  rw [dialogue?, hheading, IsSpeaker, ← isHeading_iff isSpeakerChar_iff]
  simp only [Option.bind_eq_bind, Option.bind_some, hplain, hsplit, Option.ite_none_right_eq_some,
    Option.some.injEq]
  exact and_congr_right fun _ => eq_comm

end Headed

theorem head?_of_comment? (h : comment? line.span = some form) :
    ∃ rest, trimStart line.text.toList = '/' :: '/' :: rest := by
  unfold comment? at h
  split at h
  · next rest heq => exact ⟨rest, heq⟩
  · cases h

/-- At most one blank is dropped from a comment. -/
theorem length_gap {gap : List Char} (hgap : gap = (leading (gap ++ text)).take 1) :
    (if (gap ++ text).head?.any Text.isBlank = true then 1 else 0) = gap.length := by
  cases hrest : gap ++ text with
  | nil =>
    rw [hrest] at hgap
    rw [hgap]
    rfl
  | cons c rest =>
    rw [hrest, leading, List.takeWhile_cons] at hgap
    rw [hgap]
    show (if Text.isBlank c = true then 1 else 0) = _
    split <;> simp [*]

theorem comment?_iff {gap : List Char} (hn : '\n' ∉ line.text.toList)
    (hline : trimStart line.text.toList = '/' :: '/' :: (gap ++ text))
    (hgap : gap = (leading (gap ++ text)).take 1) :
    comment? line.span = some form ↔
      form = .comment
        (line.cut (leading line.text.toList ++ '/' :: '/' :: gap) (trimEnd text)) := by
  have hlength := length_gap hgap
  have hchars : line.span.trimStart.chars = ('/' :: '/' :: gap) ++ text := hline
  have hdrop : (line.span.trimStart.drop (2 + gap.length)).trimEnd
      = { start := line.range.start
            + Text.byteLength (leading line.text.toList ++ '/' :: '/' :: gap),
          chars := trimEnd text } := by
    have hcount : 2 + gap.length = ('/' :: '/' :: gap).length := by
      rw [List.length_cons, List.length_cons]
      omega
    rw [hcount, Span.drop_of_eq hchars, Text.byteLength_append, ← Nat.add_assoc]
    rfl
  have hheld : line.span.Holds (line.span.trimStart.drop (2 + gap.length)).trimEnd :=
    (Span.holds_trimStart _).trans ((Span.holds_drop _ _).trans (Span.holds_trimEnd _))
  have hplain := plainText?_of_holds (s := line.span) hn hheld
  rw [comment?, hchars]
  show (plainText? (line.span.trimStart.drop
      (2 + if (gap ++ text).head?.any Text.isBlank then 1 else 0)).trimEnd).map comment
    = some form ↔ _
  rw [hlength, hplain, hdrop, Option.map_some, Option.some.injEq]
  exact eq_comm

theorem narration?_iff (hn : '\n' ∉ line.text.toList)
    (hline : trimStart line.text.toList = '>' :: after) (hid : SplitsId (trim after) text id) :
    narration? line.span = some form ↔
      form = .narration (line.cutBody ['>'] after [] text)
        (id.map fun (front, id) => line.cutBody ['>'] after front id) := by
  have hchars : line.span.trimStart.chars = ['>'] ++ after := hline
  have hbody : (line.span.trimStart.drop 1).trim = line.body ['>'] after := by
    rw [← SourceLine.trim_behind, show 1 = ['>'].length from rfl, Span.drop_of_eq hchars]
    rfl
  have hheld : line.span.Holds (line.body ['>'] after) := by
    rw [← hbody]
    exact (Span.holds_trimStart _).trans ((Span.holds_drop _ 1).trans (Span.holds_trim _))
  obtain ⟨hplain, hsplit⟩ := plainText?_splitId_of_splitsId hn hheld hid
  rw [narration?, hchars]
  show (plainText? (splitId (line.span.trimStart.drop 1).trim).1).map
    (narration · (splitId (line.span.trimStart.drop 1).trim).2) = some form ↔ _
  rw [hbody, hplain, hsplit, Option.map_some, Option.some.injEq]
  exact eq_comm

theorem exists_gap (rest : List Char) :
    ∃ gap text, rest = gap ++ text ∧ gap = (leading (gap ++ text)).take 1 := by
  obtain ⟨text, htext⟩ : (leading rest).take 1 <+: rest :=
    (List.take_prefix 1 _).trans (List.takeWhile_prefix Text.isBlank)
  exact ⟨(leading rest).take 1, text, htext.symm, by rw [htext]⟩

/-- A rule that has a heading reads only lines that have a colon. -/
theorem headed_of_heading? (h : heading? line.span ≠ none) :
    ∃ before after, Headed line before after :=
  (exists_headed line).resolve_right fun hcolon => h (heading?_of_no_colon hcolon)

theorem production_of_label (hn : '\n' ∉ line.text.toList)
    (h : configuredLabel? labels line.span = some form) : Production labels line form := by
  obtain ⟨before, after, hline⟩ := headed_of_heading? fun hnone => by
    rw [configuredLabel?, hnone] at h
    cases h
  obtain ⟨hhead, rfl⟩ := (configuredLabel?_iff hn hline).1 h
  exact .label hline hhead

theorem production_of_stage (hn : '\n' ∉ line.text.toList)
    (hl : configuredLabel? labels line.span = none) (h : stageHeader? line.span = some form) :
    Production labels line form := by
  obtain ⟨before, after, hline⟩ := headed_of_heading? fun hnone => by
    rw [stageHeader?, hnone] at h
    cases h
  obtain ⟨text, id, hid⟩ := exists_splitsId (trim after)
  obtain ⟨hhead, rfl⟩ := (stageHeader?_iff hn hline hid).1 h
  exact .stage hline ((configuredLabel?_eq_none hn hline).1 hl) hhead hid

theorem production_of_dialogue (hn : '\n' ∉ line.text.toList)
    (hl : configuredLabel? labels line.span = none) (hs : stageHeader? line.span = none)
    (h : dialogue? line.span = some form) : Production labels line form := by
  obtain ⟨before, after, hline⟩ := headed_of_heading? fun hnone => by
    rw [dialogue?, hnone] at h
    cases h
  obtain ⟨text, id, hid⟩ := exists_splitsId (trim after)
  obtain ⟨hhead, rfl⟩ := (dialogue?_iff hn hline hid).1 h
  exact .dialogue hline ((configuredLabel?_eq_none hn hline).1 hl)
    ((stageHeader?_eq_none hn hline).1 hs) hhead hid

/-- The rules find the form of a line that the productions give it. -/
theorem classify?_eq_some (hn : '\n' ∉ line.text.toList) :
    classify? labels line = some form ↔ Production labels line form := by
  constructor
  · intro h
    simp only [classify?, Option.orElse_eq_orElse, Option.orElse_eq_or, Option.or_eq_some_iff] at h
    rcases h with h | ⟨-, h | ⟨hl, h | ⟨hs, h | ⟨-, h⟩⟩⟩⟩
    · obtain ⟨rest, hrest⟩ := head?_of_comment? h
      obtain ⟨gap, text, rfl, hgap⟩ := exists_gap rest
      rw [(comment?_iff hn hrest hgap).1 h]
      exact .comment hrest hgap
    · exact production_of_label hn h
    · exact production_of_stage hn hl h
    · exact production_of_dialogue hn hl hs h
    · obtain ⟨after, hline⟩ : ∃ after, trimStart line.text.toList = '>' :: after :=
        List.head?_eq_some_iff.1 (head?_of_narration? h)
      obtain ⟨text, id, hid⟩ := exists_splitsId (trim after)
      rw [(narration?_iff hn hline hid).1 h]
      exact .narration hline hid
  · intro h
    cases h with
    | comment hline hgap =>
      rw [classify?, (comment?_iff hn hline hgap).2 rfl]
      rfl
    | label hline hhead =>
      exact classify?_of_configuredLabel? ((configuredLabel?_iff hn hline).2 ⟨hhead, rfl⟩)
    | stage hline hlabel hhead hid =>
      exact classify?_of_stageHeader? ((configuredLabel?_eq_none hn hline).2 hlabel)
        ((stageHeader?_iff hn hline hid).2 ⟨hhead, rfl⟩)
    | dialogue hline hlabel hstage hhead hid =>
      exact classify?_of_dialogue? ((configuredLabel?_eq_none hn hline).2 hlabel)
        ((stageHeader?_eq_none hn hline).2 hstage) ((dialogue?_iff hn hline hid).2 ⟨hhead, rfl⟩)
    | narration hline hid => exact classify?_of_narration? ((narration?_iff hn hline hid).2 rfl)

end LineForm
end Comfort
