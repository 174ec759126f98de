import Comfort.Proofs.Ident
import Comfort.Proofs.Pass.Basic

/-!
Two passes that agree.

Two passes agree when they stand alike and have reported the same texts, wherever these were found.
A line keeps two passes in agreement when both read it, and also when the second one reads it with
the id behind it that the first one gave to it.
-/

namespace Comfort

namespace Report

/-- The same record, and the same texts in the notes. -/
structure Agrees (r r' : Report) : Prop where
  record : r'.record = r.record
  messages : r'.diagnostics.map Diagnostic.message = r.diagnostics.map Diagnostic.message
  contents : r'.hovers.map Hover.content = r.hovers.map Hover.content
  candidates : r'.completions.map Completion.candidates = r.completions.map Completion.candidates
  words : r'.words.map Word.text = r.words.map Word.text

variable {r r' : Report}

theorem Agrees.addDiagnostic (h : r.Agrees r') (message : String) (range range' : TextRange) :
    (r.addDiagnostic message range).Agrees (r'.addDiagnostic message range') := by
  refine ⟨h.record, ?_, h.contents, h.candidates, h.words⟩
  simp only [Report.addDiagnostic, List.map_append, h.messages, List.map_cons, List.map_nil]

theorem Agrees.addHover (h : r.Agrees r') (content : String) (range range' : TextRange) :
    (r.addHover content range).Agrees (r'.addHover content range') := by
  refine ⟨h.record, h.messages, ?_, h.candidates, h.words⟩
  simp only [Report.addHover, List.map_append, h.contents, List.map_cons, List.map_nil]

theorem Agrees.addCompletion (h : r.Agrees r') (candidates : List String)
    (range range' : TextRange) :
    (r.addCompletion range candidates).Agrees (r'.addCompletion range' candidates) := by
  refine ⟨h.record, h.messages, h.contents, ?_, h.words⟩
  simp only [Report.addCompletion, List.map_append, h.candidates, List.map_cons, List.map_nil]

theorem Agrees.addEdit (h : r.Agrees r') (range : TextRange) (newText : String) :
    (r.addEdit range newText).Agrees r' :=
  ⟨h.record, h.messages, h.contents, h.candidates, h.words⟩

theorem Agrees.spell (h : r.Agrees r') (ctx : ParseContext) {c c' : Capture}
    (hc : c'.value = c.value) : (r.spell ctx c).Agrees (r'.spell ctx c') := by
  unfold Report.spell
  split
  · refine ⟨h.record, h.messages, h.contents, h.candidates, ?_⟩
    simp only [Report.addWords, List.map_append, h.words, hc,
      Text.map_text_words c.range.start c'.range.start]
  · exact h

theorem Agrees.addComment (h : r.Agrees r') (text : String) :
    (r.addComment text).Agrees (r'.addComment text) := by
  refine ⟨?_, h.messages, h.contents, h.candidates, h.words⟩
  simp only [Report.addComment, h.record]

theorem Agrees.addStage (h : r.Agrees r') (stage : Stage) :
    (r.addStage stage).Agrees (r'.addStage stage) := by
  refine ⟨?_, h.messages, h.contents, h.candidates, h.words⟩
  simp only [Report.addStage, h.record]

theorem Agrees.addElement (h : r.Agrees r') (element : StageElement) :
    (r.addElement element).Agrees (r'.addElement element) := by
  refine ⟨?_, h.messages, h.contents, h.candidates, h.words⟩
  simp only [Report.addElement, h.record]

end Report

namespace Pass

/-- Both passes stand alike and have reported the same texts. -/
structure Agrees (p p' : Pass) : Prop where
  inStage : p'.inStage = p.inStage
  seen : p'.seen = p.seen
  report : p.report.Agrees p'.report

/-- Both passes have gone on in agreement, and neither has proposed an edit. -/
structure Together (p p' q q' : Pass) : Prop where
  agrees : q.Agrees q'
  left : q.report.edits = p.report.edits
  right : q'.report.edits = p'.report.edits

theorem Together.trans {p p' q q' u u' : Pass} (h : Together p p' q q')
    (h' : Together q q' u u') : Together p p' u u' :=
  ⟨h'.agrees, h'.left.trans h.left, h'.right.trans h.right⟩

variable {p p' : Pass} {ctx : ParseContext} {line line' : SourceLine}

theorem agrees_refl (p : Pass) : p.Agrees p :=
  ⟨rfl, rfl, ⟨rfl, rfl, rfl, rfl, rfl⟩⟩

theorem Agrees.together (h : p.Agrees p') : Together p p' p p' :=
  ⟨h, rfl, rfl⟩

theorem Agrees.traceLine (h : p.Agrees p') (line line' : SourceLine) :
    Together p p' (p.traceLine line) (p'.traceLine line') :=
  ⟨⟨h.inStage, h.seen, h.report⟩, rfl, rfl⟩

theorem Agrees.diagnose (h : p.Agrees p') (message : String) (range range' : TextRange) :
    Together p p' (p.diagnose message range) (p'.diagnose message range') :=
  ⟨⟨h.inStage, h.seen, h.report.addDiagnostic message range range'⟩, rfl, rfl⟩

theorem edits_spell (r : Report) (ctx : ParseContext) (c : Capture) :
    (r.spell ctx c).edits = r.edits := by
  unfold Report.spell
  split <;> rfl

theorem Agrees.spell (h : p.Agrees p') (ctx : ParseContext) {c c' : Capture}
    (hc : c'.value = c.value) : Together p p' (p.spell ctx c) (p'.spell ctx c') :=
  ⟨⟨h.inStage, h.seen, h.report.spell ctx hc⟩, edits_spell .., edits_spell ..⟩

/-- A diagnostic that both passes give, or neither. -/
theorem Agrees.diagnoseIf (h : p.Agrees p') (b : Prop) [Decidable b] (message : String)
    (range range' : TextRange) :
    Together p p' (if b then p.diagnose message range else p)
      (if b then p'.diagnose message range' else p') := by
  split
  · exact h.diagnose message range range'
  · exact h.together

theorem Agrees.unfamiliar (h : p.Agrees p') (ht : line'.text = line.text) :
    Together p p' (p.unfamiliar line) (p'.unfamiliar line') := by
  have hd := h.diagnose ("Unfamiliar syntax: " ++ line.text) line.contentRange line'.contentRange
  unfold Pass.unfamiliar
  rw [ht]
  exact ⟨⟨rfl, hd.agrees.seen, hd.agrees.report⟩, hd.left, hd.right⟩

theorem Agrees.comment (h : p.Agrees p') {text text' : Capture} (ht : text'.value = text.value) :
    Together p p' (p.comment text) (p'.comment text') := by
  unfold Pass.comment
  rw [ht]
  exact ⟨⟨h.inStage, h.seen, h.report.addComment text.value⟩, rfl, rfl⟩

theorem Agrees.setField (h : p.Agrees p') (field : Field) {label label' text text' : Capture}
    (ht : text'.value = text.value) :
    Together p p' (p.setField ctx line field label text)
      (p'.setField ctx line' field label' text') := by
  have hd := h.diagnoseIf (field = .name ∧ trimmed text.value = "") "Quest name required!"
    line.contentRange line'.contentRange
  unfold Pass.setField
  dsimp only
  rw [ht]
  generalize (if field = .name ∧ trimmed text.value = "" then
    p.diagnose "Quest name required!" line.contentRange else p) = q at hd ⊢
  generalize (if field = .name ∧ trimmed text.value = "" then
    p'.diagnose "Quest name required!" line'.contentRange else p') = q' at hd ⊢
  have hs : Together q q' (if field.isProse then q.spell ctx text else q)
      (if field.isProse then q'.spell ctx text' else q') := by
    split
    · exact hd.agrees.spell ctx ht
    · exact hd.agrees.together
  have hh := hs.agrees.report.addHover field.hoverText label.range label'.range
  have hboth := hd.trans hs
  refine ⟨⟨rfl, hs.agrees.seen, ?_⟩, hboth.left, hboth.right⟩
  refine ⟨?_, hh.messages, hh.contents, hh.candidates, hh.words⟩
  show field.set _ _ = field.set _ _
  rw [hh.record]

theorem edits_setField (p : Pass) (ctx : ParseContext) (line : SourceLine) (field : Field)
    (label text : Capture) :
    (p.setField ctx line field label text).report.edits = p.report.edits := by
  have h : Together p p (p.setField ctx line field label text)
      (p.setField ctx line field label text) := p.agrees_refl.setField field rfl
  exact h.left

/-! ## Speakers and ids -/

theorem Agrees.speaker (h : p.Agrees p') {c c' : Option Capture}
    (hc : c'.map Capture.value = c.map Capture.value) {q : Pass} {a : Option String × Bool}
    (hd : p.speaker ctx c = .done q a) :
    ∃ q', p'.speaker ctx c' = .done q' a ∧ Together p p' q q' := by
  cases c with
  | none =>
    cases c' with
    | some c' => cases hc
    | none =>
      cases hd
      exact ⟨p', rfl, h.together⟩
  | some c =>
    cases c' with
    | none => cases hc
    | some c' =>
      have hvalue : c'.value = c.value := Option.some.inj hc
      unfold Pass.speaker at hd ⊢
      dsimp only at hd ⊢
      cases hspeakers : ctx.speakers with
      | error cause =>
        rw [hspeakers] at hd
        cases cause with
        | notFound id =>
          cases hd
          rw [hvalue]
          exact ⟨p', rfl, h.together⟩
        | _ => cases hd
      | ok speakers =>
        rw [hspeakers] at hd
        dsimp only at hd ⊢
        rw [hvalue]
        have hcomp := h.report.addCompletion (Session.candidates speakers) c.range c'.range
        cases hfind : speakers.find? (fun speaker => speaker.isNamed c.value) with
        | some found =>
          rw [hfind] at hd
          cases hd
          exact ⟨_, rfl, ⟨h.inStage, h.seen, hcomp.addHover _ _ _⟩, rfl, rfl⟩
        | none =>
          rw [hfind] at hd
          cases hd
          exact ⟨_, rfl, ⟨h.inStage, h.seen, hcomp.addDiagnostic _ _ _⟩, rfl, rfl⟩

/-- What is proposed for a line when its id is claimed. -/
def proposed (line : SourceLine) (id : Option Capture) (a : String) : List Edit :=
  if id.isNone then [{ range := Session.idPlace line, newText := " #" ++ a }] else []

/-- A pass that has claimed the id of a line as `a`. -/
structure Claimed (line : SourceLine) (id : Option Capture) (a : String) (p q : Pass) : Prop where
  isId : id = none → Text.IsId a.toList
  written : ∀ c, id = some c → c.value = a
  edits : q.report.edits = p.report.edits ++ proposed line id a

/-- The second pass is done in agreement with the first one, and has proposed no edit. -/
def Rejoins {α : Type} (q p' : Pass) (o : Step α) (a : α) : Prop :=
  ∃ q', o = .done q' a ∧ q.Agrees q' ∧ q'.report.edits = p'.report.edits

theorem Rejoins.of_edits {α : Type} {q t : Pass} {o : Step α} {a : α} (h : q.Rejoins t o a)
    (he : t.report.edits = p'.report.edits) : q.Rejoins p' o a := by
  obtain ⟨q', hq', hagrees, hsame⟩ := h
  exact ⟨q', hq', hagrees, hsame.trans he⟩

/-- Passes that agree claim the same id again wherever they find it written. -/
def Reclaimed (p q : Pass) (a : String) : Prop :=
  ∀ (p' : Pass) (line' : SourceLine) (c' : Capture), p.Agrees p' → c'.value = a →
    q.Rejoins p' (p'.claim line' (some c')) a

theorem claim_written_spec {c : Capture} {q : Pass} {a : String}
    (hd : p.claim line (some c) = .done q a) :
    Claimed line (some c) a p q ∧ p.Reclaimed q a := by
  unfold Pass.claim at hd
  dsimp only at hd
  have hvalue : c.value = a := by
    split at hd <;> cases hd <;> rfl
  refine ⟨⟨nofun, ?_, ?_⟩, ?_⟩
  · intro d hsome
    cases hsome
    exact hvalue
  · rw [proposed, if_neg (by simp), List.append_nil]
    split at hd <;> cases hd <;> rfl
  · intro p' line' c' h hc'
    have hsame : c'.value = c.value := hc'.trans hvalue.symm
    unfold Pass.claim
    dsimp only
    rw [hsame, h.seen]
    split at hd
    · next hseen =>
      cases hd
      rw [if_pos hseen]
      have hdiag := h.diagnose ("Duplicate id: " ++ c.value) c.range c'.range
      exact ⟨_, rfl, hdiag.agrees, rfl⟩
    · next hseen =>
      cases hd
      rw [if_neg hseen]
      exact ⟨_, rfl, ⟨h.inStage, rfl, h.report⟩, rfl⟩

theorem claim_derived_spec {q : Pass} {a : String} (hd : p.claim line none = .done q a) :
    Claimed line none a p q ∧ p.Reclaimed q a := by
  unfold Pass.claim at hd
  dsimp only at hd
  split at hd
  · cases hd
  · next id hfresh =>
    cases hd
    obtain ⟨hfree, -⟩ := Ident.fresh?_eq_some hfresh
    refine ⟨⟨fun _ => Ident.isId_of_fresh? hfresh, nofun, rfl⟩, ?_⟩
    intro p' line' c' h hc'
    -- the id is as fresh for the second pass, so that it is no duplicate where it is written
    have hseen : ¬ p'.seen.contains c'.value = true := by
      rw [hc', h.seen]
      simpa using hfree
    have hseen' : a :: p'.seen = a :: p.seen := by rw [h.seen]
    unfold Pass.claim
    dsimp only
    rw [if_neg hseen, hc']
    exact ⟨_, rfl, ⟨h.inStage, hseen', h.report.addEdit _ _⟩, rfl⟩

theorem claim_spec {id : Option Capture} {q : Pass} {a : String}
    (hd : p.claim line id = .done q a) :
    Claimed line id a p q ∧ p.Reclaimed q a := by
  cases id with
  | some c => exact claim_written_spec hd
  | none => exact claim_derived_spec hd

theorem Claimed.after {id : Option Capture} {a : String} {t u : Pass}
    (h : Claimed line id a t u) (he : t.report.edits = p.report.edits) {q : Pass}
    (hq : q.report.edits = u.report.edits) : Claimed line id a p q := by
  refine ⟨h.isId, h.written, ?_⟩
  rw [hq, h.edits, he]

/-! ## Headers and elements -/

theorem openStage_spec {name : Capture} {id : Option Capture} {q : Pass}
    (hd : p.openStage ctx line name id = .done q ()) :
    ∃ a, Claimed line id a p q ∧
      ∀ (p' : Pass) (line' : SourceLine) (name' c' : Capture), p.Agrees p' →
        name'.value = name.value → c'.value = a →
        q.Rejoins p' (p'.openStage ctx line' name' (some c')) () := by
  have hself : ∀ p' : Pass, p.Agrees p' → ∀ (line' : SourceLine) (name' : Capture),
      name'.value = name.value →
      Together p p' ((if trimmed name.value = "" then
          p.diagnose "Stage name required!" line.contentRange else p).spell ctx name)
        ((if trimmed name.value = "" then
          p'.diagnose "Stage name required!" line'.contentRange else p').spell ctx name') := by
    intro p' h line' name' hname
    have hdiag := h.diagnoseIf (trimmed name.value = "") "Stage name required!"
      line.contentRange line'.contentRange
    exact hdiag.trans (hdiag.agrees.spell ctx hname)
  unfold Pass.openStage at hd
  dsimp only at hd
  obtain ⟨u, a, hclaim, hd⟩ := Outcome.andThen_eq_done.1 hd
  cases hd
  obtain ⟨hclaimed, hagain⟩ := claim_spec hclaim
  refine ⟨a, hclaimed.after (hself p p.agrees_refl line name rfl).left rfl, ?_⟩
  intro p' line' name' c' h hname hc'
  have hstart := hself p' h line' name' hname
  obtain ⟨u', hu', hagrees, hsame⟩ := hagain _ line' c' hstart.agrees hc'
  unfold Pass.openStage
  dsimp only
  rw [hname, hu', Outcome.andThen_done]
  exact ⟨_, rfl, ⟨rfl, hagrees.seen, hagrees.report.addStage _⟩, hsame.trans hstart.right⟩

theorem addElement_spec {speaker : Option Capture} {text : Capture} {id : Option Capture}
    {q : Pass} (hd : p.addElement ctx line speaker text id = .done q ()) :
    ∃ a, Claimed line id a p q ∧
      ∀ (p' : Pass) (line' : SourceLine) (speaker' : Option Capture) (text' c' : Capture),
        p.Agrees p' → speaker'.map Capture.value = speaker.map Capture.value →
        text'.value = text.value → c'.value = a →
        q.Rejoins p' (p'.addElement ctx line' speaker' text' (some c')) () := by
  unfold Pass.addElement at hd
  dsimp only at hd
  obtain ⟨t, ⟨who, unknown⟩, hspeaker, hd⟩ := Outcome.andThen_eq_done.1 hd
  obtain ⟨u, a, hclaim, hd⟩ := Outcome.andThen_eq_done.1 hd
  cases hd
  have hself : ∀ p' : Pass, p.Agrees p' →
      ∀ (line' : SourceLine) (speaker' : Option Capture) (text' : Capture),
      speaker'.map Capture.value = speaker.map Capture.value → text'.value = text.value →
      ∃ t', (p'.spell ctx text').speaker ctx speaker' = .done t' (who, unknown) ∧
        Together p p' (if trimmed text.value = "" then
          t.diagnose (Session.missingText (if speaker.isSome then .dialogue else .text))
            line.contentRange else t)
        (if trimmed text.value = "" then
          t'.diagnose (Session.missingText (if speaker.isSome then .dialogue else .text))
            line'.contentRange else t') := by
    intro p' h line' speaker' text' hsp ht
    have hspell := h.spell ctx ht
    obtain ⟨t', ht', htogether⟩ := hspell.agrees.speaker hsp hspeaker
    exact ⟨t', ht', (hspell.trans htogether).trans (htogether.agrees.diagnoseIf _ _ _ _)⟩
  obtain ⟨hclaimed, hagain⟩ := claim_spec hclaim
  obtain ⟨_, _, hleft⟩ := hself p p.agrees_refl line speaker text rfl rfl
  refine ⟨a, hclaimed.after hleft.left rfl, ?_⟩
  intro p' line' speaker' text' c' h hsp ht hc'
  obtain ⟨t', ht', hstart⟩ := hself p' h line' speaker' text' hsp ht
  obtain ⟨u', hu', hagrees, hsame⟩ := hagain _ line' c' hstart.agrees hc'
  have hsome : speaker'.isSome = speaker.isSome := by
    rw [← Option.isSome_map, hsp, Option.isSome_map]
  unfold Pass.addElement
  dsimp only
  rw [ht', Outcome.andThen_done]
  dsimp only
  rw [ht, hsome, hu', Outcome.andThen_done]
  exact ⟨_, rfl, ⟨hagrees.inStage, hagrees.seen, hagrees.report.addElement _⟩,
    hsame.trans hstart.right⟩

/-! ## Lines -/

/-- Every pass in agreement with `p` takes the line `line'` in agreement with `q`, and proposes no
edit for it. -/
def Follows (ctx : ParseContext) (p q : Pass) (line' : SourceLine) : Prop :=
  ∀ p' : Pass, p.Agrees p' → q.Rejoins p' (p'.step ctx line') ()

/-- What a line adds to the edits of a pass.  Where it adds one, other passes follow on the line with
the id that the edit writes, and otherwise on the line as it is. -/
inductive StepAgrees (ctx : ParseContext) (p : Pass) (line : SourceLine) (q : Pass) : Prop where
  | kept (edits : q.report.edits = p.report.edits)
      (again : ∀ line' : SourceLine, line'.text = line.text → p.Follows ctx q line')
  | given (id : List Char) (isId : Text.IsId id)
      (lacks : (line.meaning ctx.labels).lacksId = true)
      (edits : q.report.edits = p.report.edits
        ++ [{ range := Session.idPlace line, newText := " #" ++ String.ofList id }])
      (again : ∀ line' : SourceLine, LineForm.Annotated id line.span line'.span →
        p.Follows ctx q line')

theorem map_value_eq_some {id id' : Option Capture} {c : Capture} (hid : id = some c)
    (h : id'.map Capture.value = id.map Capture.value) :
    ∃ c', id' = some c' ∧ c'.value = c.value := by
  rw [hid, Option.map_some, Option.map_eq_some_iff] at h
  exact h

/-- A line whose id is claimed.  A written id is read again, and a new one is read where the edit
writes it. -/
theorem stepAgrees_of_claimed {id : Option Capture} {q : Pass} {a : String}
    (hc : Claimed line id a p q) (hlacks : id = none → (line.meaning ctx.labels).lacksId = true)
    (hwritten : ∀ c, id = some c → ∀ line' : SourceLine, line'.text = line.text →
      p.Follows ctx q line')
    (hgiven : ∀ line' : SourceLine,
      (line.meaning ctx.labels).Gains a (line'.meaning ctx.labels) → p.Follows ctx q line') :
    StepAgrees ctx p line q := by
  have hedits := hc.edits
  cases id with
  | some c =>
    rw [proposed, if_neg (by simp), List.append_nil] at hedits
    exact .kept hedits (hwritten c rfl)
  | none =>
    have hid : Text.IsId a.toList := hc.isId rfl
    refine .given a.toList hid (hlacks rfl) ?_ fun line' hline => hgiven line' ?_
    · rw [String.ofList_toList]
      exact hedits
    · have hgains := SourceLine.meaning_annotated hline hid (hlacks rfl)
      rwa [String.ofList_toList] at hgains

theorem step_header {q : Pass} {name : Capture} {id : Option Capture}
    (hm : line.meaning ctx.labels = .header name id)
    (hd : (p.traceLine line).openStage ctx line name id = .done q ()) :
    StepAgrees ctx p line q := by
  obtain ⟨a, hclaimed, hagain⟩ := openStage_spec hd
  have hstep : ∀ (line' : SourceLine) (name' c' : Capture),
      line'.meaning ctx.labels = .header name' (some c') → name'.value = name.value →
      c'.value = a → p.Follows ctx q line' := by
    intro line' name' c' hm' hn hc' p' h
    have htrace := h.traceLine line line'
    have hrejoins := hagain (p'.traceLine line') line' name' c' htrace.agrees hn hc'
    rw [Pass.step, hm']
    exact hrejoins.of_edits htrace.right
  have htraced : (p.traceLine line).report.edits = p.report.edits := rfl
  have hown : Claimed line id a p q := hclaimed.after htraced rfl
  refine stepAgrees_of_claimed hown ?_ ?_ ?_
  · intro hnone
    rw [hm, hnone]
    rfl
  · intro c hc line' ht
    have hsame := SourceLine.meaning_sameText ctx.labels ht
    rw [hm] at hsame
    generalize hm' : line'.meaning ctx.labels = m' at hsame
    cases hsame with
    | header hn hi =>
      obtain ⟨c', rfl, hvalue⟩ := map_value_eq_some hc hi
      exact hstep line' _ c' hm' hn (hvalue.trans (hclaimed.written c hc))
  · intro line' hgains
    rw [hm] at hgains
    generalize hm' : line'.meaning ctx.labels = m' at hgains
    cases hgains with
    | header hn hc => exact hstep line' _ _ hm' hn hc

theorem step_element (hin : p.inStage = true) {q : Pass} {speaker : Option Capture}
    {text : Capture} {id : Option Capture}
    (hm : line.meaning ctx.labels = .element speaker text id)
    (hd : (p.traceLine line).addElement ctx line speaker text id = .done q ()) :
    StepAgrees ctx p line q := by
  obtain ⟨a, hclaimed, hagain⟩ := addElement_spec hd
  have hstep : ∀ (line' : SourceLine) (speaker' : Option Capture) (text' c' : Capture),
      line'.meaning ctx.labels = .element speaker' text' (some c') →
      speaker'.map Capture.value = speaker.map Capture.value → text'.value = text.value →
      c'.value = a → p.Follows ctx q line' := by
    intro line' speaker' text' c' hm' hs ht hc' p' h
    have hin' : p'.inStage = true := h.inStage.trans hin
    have htrace := h.traceLine line line'
    have hrejoins := hagain (p'.traceLine line') line' speaker' text' c' htrace.agrees hs ht hc'
    rw [Pass.step, hm']
    dsimp only
    rw [if_pos hin']
    exact hrejoins.of_edits htrace.right
  have htraced : (p.traceLine line).report.edits = p.report.edits := rfl
  have hown : Claimed line id a p q := hclaimed.after htraced rfl
  refine stepAgrees_of_claimed hown ?_ ?_ ?_
  · intro hnone
    rw [hm, hnone]
    rfl
  · intro c hc line' ht
    have hsame := SourceLine.meaning_sameText ctx.labels ht
    rw [hm] at hsame
    generalize hm' : line'.meaning ctx.labels = m' at hsame
    cases hsame with
    | element hs ht hi =>
      obtain ⟨c', rfl, hvalue⟩ := map_value_eq_some hc hi
      exact hstep line' _ _ c' hm' hs ht (hvalue.trans (hclaimed.written c hc))
  · intro line' hgains
    rw [hm] at hgains
    generalize hm' : line'.meaning ctx.labels = m' at hgains
    cases hgains with
    | element hs ht hc => exact hstep line' _ _ _ hm' hs ht hc

/-- A line for which no id is claimed. -/
theorem stepAgrees_of_together {q : Pass} (hedits : q.report.edits = p.report.edits)
    (hstep : ∀ (line' : SourceLine) (m : LineMeaning), line'.text = line.text →
      line'.meaning ctx.labels = m → (line.meaning ctx.labels).SameText m →
      ∀ p', p.Agrees p' → ∃ q', p'.step ctx line' = .done q' () ∧ Together p p' q q') :
    StepAgrees ctx p line q := by
  refine .kept hedits fun line' ht p' h => ?_
  have hsame := SourceLine.meaning_sameText ctx.labels ht
  obtain ⟨q', hq', htogether⟩ := hstep line' _ ht rfl hsame p' h
  exact ⟨q', hq', htogether.agrees, htogether.right⟩

theorem step_comment {q : Pass} {text : Capture} (hm : line.meaning ctx.labels = .comment text)
    (hd : (if p.inStage then .done (p.comment text) ()
      else .done ((p.traceLine line).comment text) () : Step Unit) = .done q ()) :
    StepAgrees ctx p line q := by
  refine stepAgrees_of_together (by split at hd <;> cases hd <;> rfl) ?_
  intro line' m' _ hm' hsame p' h
  rw [hm] at hsame
  cases hsame with
  | comment ht =>
    have htrace := h.traceLine line line'
    rw [Pass.step, hm']
    dsimp only
    rw [h.inStage]
    split at hd
    · next hin =>
      cases hd
      rw [if_pos hin]
      exact ⟨_, rfl, h.comment ht⟩
    · next hin =>
      cases hd
      rw [if_neg hin]
      exact ⟨_, rfl, htrace.trans (htrace.agrees.comment ht)⟩

/-- An element outside a stage. -/
theorem step_strayElement (hin : ¬ p.inStage = true) {speaker : Option Capture} {text : Capture}
    {id : Option Capture} (hm : line.meaning ctx.labels = .element speaker text id) :
    StepAgrees ctx p line ((p.traceLine line).unfamiliar line) := by
  refine stepAgrees_of_together rfl fun line' m' htext hm' hsame p' h => ?_
  rw [hm] at hsame
  cases hsame with
  | element hs ht hi =>
    have hin' : ¬ p'.inStage = true := by
      rw [h.inStage]
      exact hin
    have htrace := h.traceLine line line'
    rw [Pass.step, hm']
    dsimp only
    rw [if_neg hin']
    exact ⟨_, rfl, htrace.trans (htrace.agrees.unfamiliar htext)⟩

/-- A line keeps all passes in agreement. -/
theorem stepAgrees {q : Pass} (hd : p.step ctx line = .done q ()) : StepAgrees ctx p line q := by
  unfold Pass.step at hd
  cases hm : line.meaning ctx.labels with
  | blank =>
    rw [hm] at hd
    cases hd
    refine stepAgrees_of_together rfl fun line' m' _ hm' hsame p' h => ?_
    rw [hm] at hsame
    cases hsame
    rw [Pass.step, hm']
    exact ⟨p', rfl, h.together⟩
  | comment text =>
    rw [hm] at hd
    exact step_comment hm hd
  | field field label text =>
    rw [hm] at hd
    cases hd
    refine stepAgrees_of_together (edits_setField ..) fun line' m' _ hm' hsame p' h => ?_
    rw [hm] at hsame
    cases hsame with
    | field ht =>
      have htrace := h.traceLine line line'
      rw [Pass.step, hm']
      exact ⟨_, rfl, htrace.trans (htrace.agrees.setField field ht)⟩
  | header name id =>
    rw [hm] at hd
    exact step_header hm hd
  | element speaker text id =>
    rw [hm] at hd
    dsimp only at hd
    split at hd
    · next hin => exact step_element hin hm hd
    · next hin =>
      cases hd
      exact step_strayElement hin hm
  | other =>
    rw [hm] at hd
    cases hd
    refine stepAgrees_of_together rfl fun line' m' htext hm' hsame p' h => ?_
    rw [hm] at hsame
    cases hsame
    have htrace := h.traceLine line line'
    rw [Pass.step, hm']
    exact ⟨_, rfl, htrace.trans (htrace.agrees.unfamiliar htext)⟩

end Pass
end Comfort
