import Comfort.Proofs.Document.Cut
import Comfort.Proofs.Edits.Agree
import Comfort.Proofs.Edits.Insert
import Comfort.Proofs.Pass.Reading

/-!
Accepting what was proposed.

The edits of a document only insert, and each of them stands within the line that it is proposed
for, in the order of the lines.  So the text with all edits made is cut into the lines with the edit
of each line made, and a pass over these agrees with the pass over the lines as they were.
-/

namespace Comfort

open Text (annotate)

variable {ctx : ParseContext} {p q : Pass}

/-- An edit that only inserts, at `offset` or behind it. -/
structure Edit.InsertsFrom (offset : Nat) (e : Edit) : Prop where
  empty : e.range.stop = e.range.start
  le : offset ≤ e.range.start

theorem Edit.InsertsFrom.mono {offset offset' : Nat} {e : Edit} (h : e.InsertsFrom offset)
    (hle : offset' ≤ offset) : e.InsertsFrom offset' :=
  ⟨h.empty, Nat.le_trans hle h.le⟩

/-- An insertion of an id behind what the first line says. -/
theorem Edit.insertFrom_annotate {e : Edit} {later : List Edit} {start : Nat} {raw id : List Char}
    (hplace : e.range.start = start + Text.byteLength (Text.trimEnd raw))
    (hnew : e.newText = " #" ++ String.ofList id)
    (h : ∀ f ∈ later, start + Text.byteLength raw ≤ f.range.start) (cs : List Char) :
    insertFrom (e :: later) start (raw ++ cs)
      = annotate id raw ++ insertFrom later (start + Text.byteLength raw) cs := by
  have hsplit := Text.trimEnd_append_trailing raw
  rw [← hsplit] at h
  have hinsert := insertFrom_append_append hplace h cs
  rw [hsplit] at hinsert
  rw [hinsert, hnew, annotate]
  simp

namespace Document

theorem not_allBlank_of_lacksId {labels : GlobalLabels} {index start : Nat} {raw : List Char}
    (h : ((lineAt index start raw).meaning labels).lacksId = true) :
    Text.allBlank raw = false := by
  cases hraw : Text.allBlank raw with
  | false => rfl
  | true =>
    have hchars : ∀ c ∈ raw, Text.isBlank c = true := List.all_eq_true.1 hraw
    have hblank : (lineAt index start raw).isBlank = true := by
      rw [SourceLine.isBlank, lineAt, String.toList_ofList]
      exact List.all_eq_true.2 fun c hc => hchars c (Text.mem_of_mem_dropEndWhile hc)
    rw [meaning_of_isBlank hblank] at h
    cases h

/-- The place for the id of a line is behind what its raw line says. -/
theorem start_idPlace {index start : Nat} {raw : List Char} (hr : Text.allBlank raw = false) :
    (Session.idPlace (lineAt index start raw)).start
      = start + Text.byteLength (Text.trimEnd raw) := by
  rw [Session.idPlace, trimEnd_text hr rfl]
  rfl

end Document

namespace Pass

open Document (Cut lineAt)

/-- What was proposed for the raw line `raw` at `start` is `edits`, and `raw'` is the line with these
made. -/
structure AcceptsLine (ctx : ParseContext) (p q : Pass) (start : Nat) (raw : List Char)
    (edits : List Edit) (raw' : List Char) : Prop where
  proposed : q.report.edits = p.report.edits ++ edits
  inserts : ∀ e ∈ edits, e.InsertsFrom start
  text : ∀ later cs, (∀ e ∈ later, e.InsertsFrom (start + Text.byteLength raw)) →
    Edit.insertFrom (edits ++ later) start (raw ++ cs)
      = raw' ++ Edit.insertFrom later (start + Text.byteLength raw) cs
  cut : ∀ rest, Cut (raw :: rest) → Cut (raw' :: rest)
  again : ∀ index start', p.Follows ctx q (lineAt index start' raw')

theorem acceptsLine_of_step {index start : Nat} {raw : List Char}
    (hd : p.step ctx (lineAt index start raw) = .done q ()) :
    ∃ edits raw', AcceptsLine ctx p q start raw edits raw' := by
  cases stepAgrees hd with
  | kept hedits again =>
    refine ⟨[], raw, ?_, nofun, ?_, fun _ h => h, fun _ _ => again _ rfl⟩
    · rw [hedits, List.append_nil]
    · intro later cs hlater
      exact Edit.insertFrom_append (fun e he => (hlater e he).le) cs
  | given id hid hlacks hedits again =>
    have hraw : Text.allBlank raw = false := Document.not_allBlank_of_lacksId hlacks
    have hplace : (Session.idPlace (lineAt index start raw)).start
        = start + Text.byteLength (Text.trimEnd raw) := Document.start_idPlace hraw
    refine ⟨_, annotate id raw, hedits, ?_, ?_, fun _ h => h.annotate hid, ?_⟩
    · intro e he
      cases List.mem_singleton.1 he
      have hle : start ≤ (Session.idPlace (lineAt index start raw)).start := by omega
      exact ⟨rfl, hle⟩
    · intro later cs hlater
      exact Edit.insertFrom_annotate hplace rfl (fun e he => (hlater e he).le) cs
    · intro index' start'
      exact again _ (Document.annotated_of_raw hid hraw rfl rfl)

/-- What was proposed for the raw lines `raws`, the first of them at `start`, is `edits`, and `raws'`
are the lines with these made. -/
structure Accepts (ctx : ParseContext) (p q : Pass) (start : Nat) (raws : List (List Char))
    (edits : List Edit) (raws' : List (List Char)) : Prop where
  proposed : q.report.edits = p.report.edits ++ edits
  inserts : ∀ e ∈ edits, e.InsertsFrom start
  text : Edit.insertFrom edits start raws.flatten = raws'.flatten
  cut : Cut raws → Cut raws'
  length : raws'.length = raws.length
  again : ∀ (p' : Pass) (index start' : Nat), p.Agrees p' →
    q.Rejoins p' (p'.run ctx (Document.locate index start' raws')) ()

theorem accepts_nil (p : Pass) (start : Nat) : Accepts ctx p p start [] [] [] where
  proposed := (List.append_nil _).symm
  inserts := nofun
  text := rfl
  cut h := h
  length := rfl
  again p' _ _ h := ⟨p', rfl, h, rfl⟩

theorem AcceptsLine.cons {t : Pass} {start : Nat} {raw raw' : List Char}
    {rest rest' : List (List Char)} {edits later : List Edit}
    (h : AcceptsLine ctx p t start raw edits raw')
    (hr : Accepts ctx t q (start + Text.byteLength raw) rest later rest') :
    Accepts ctx p q start (raw :: rest) (edits ++ later) (raw' :: rest') := by
  have hlength : (raw' :: rest').length = (raw :: rest).length :=
    congrArg (· + 1) hr.length
  refine ⟨?_, ?_, ?_, ?_, hlength, ?_⟩
  · rw [hr.proposed, h.proposed, List.append_assoc]
  · intro e he
    rcases List.mem_append.1 he with he | he
    · exact h.inserts e he
    · exact (hr.inserts e he).mono (Nat.le_add_right _ _)
  · rw [List.flatten_cons, List.flatten_cons, h.text later _ hr.inserts, hr.text]
  · intro hcut
    exact h.cut rest' (hcut.replace_tail (hr.cut hcut.tail) hr.length)
  · intro p' index start' hp'
    obtain ⟨t', ht', hagrees, hsame⟩ := h.again index start' p' hp'
    obtain ⟨q', hq', hagrees', hsame'⟩ :=
      hr.again t' (index + 1) (start' + Text.byteLength raw') hagrees
    refine ⟨q', ?_, hagrees', hsame'.trans hsame⟩
    rw [Document.locate_cons, Pass.run, ht', Outcome.andThen_done]
    exact hq'

/-- What is proposed in a run can be accepted line by line. -/
theorem accepts_of_run {index start : Nat} {raws : List (List Char)}
    (hd : p.run ctx (Document.locate index start raws) = .done q ()) :
    ∃ edits raws', Accepts ctx p q start raws edits raws' := by
  induction raws generalizing p index start with
  | nil =>
    cases hd
    exact ⟨_, _, accepts_nil _ start⟩
  | cons raw rest ih =>
    rw [Document.locate_cons, Pass.run] at hd
    obtain ⟨t, _, ht, hd⟩ := Outcome.andThen_eq_done.1 hd
    obtain ⟨edits, raw', hline⟩ := acceptsLine_of_step ht
    obtain ⟨later, rest', hrest⟩ := ih hd
    exact ⟨_, _, hline.cons hrest⟩

end Pass

namespace Document

variable {text : String} {store : Store} {options : ParseOptions} {report : Report}

/-- Accepting all edits is stable: the text with these made reads as the text did, and nothing more
is proposed for it. -/
theorem parse_insertAll (h : parse text store options = .ok report) :
    ∃ report', parse (Edit.insertAll report.edits text) store options = .ok report' ∧
      report'.edits = [] ∧ report.Agrees report' := by
  obtain ⟨p, hp, rfl⟩ := run_of_parse h
  obtain ⟨edits, raws', haccepts⟩ := Pass.accepts_of_run hp
  have hedits : p.report.edits = edits := haccepts.proposed
  have hcut : Cut raws' := haccepts.cut (cut_rawLines text.toList)
  have htext : (Edit.insertAll p.report.edits text).toList = raws'.flatten := by
    have hflat := haccepts.text
    rw [flatten_rawLines] at hflat
    rw [Edit.insertAll, String.toList_ofList, hedits, hflat]
  obtain ⟨q, hq, hagrees, hnone⟩ := haccepts.again {} 0 0 (Pass.agrees_refl {})
  refine ⟨q.report, ?_, hnone, hagrees.report⟩
  rw [parse, parseIn_eq_run, htext, lines, rawLines_flatten hcut, hq]
  rfl

/-- A line without an id, where an id may not have a capital. -/
def unlabelledText : String := "Stage: One #s1\r\n> #No  \r\n"

def unlabelledEdits : List Edit := [⟨⟨21, 21⟩, " #9d45b2"⟩]

theorem parse_unlabelledText :
    (parse unlabelledText {} {}).map Report.edits = .ok unlabelledEdits := by
  rw [parse, parseIn_eq_run]
  decide +kernel

theorem parse_insertAll_unlabelled :
    ∃ report report', parse unlabelledText {} {} = .ok report ∧ report.edits = unlabelledEdits ∧
      parse (Edit.insertAll unlabelledEdits unlabelledText) {} {} = .ok report' ∧
      report'.edits = [] ∧ report.Agrees report' := by
  have hparse := parse_unlabelledText
  cases hr : parse unlabelledText {} {} with
  | error e =>
    rw [hr] at hparse
    cases hparse
  | ok report =>
    rw [hr] at hparse
    have hedits : report.edits = unlabelledEdits := Except.ok.inj hparse
    obtain ⟨report', hagain⟩ := parse_insertAll hr
    rw [hedits] at hagain
    exact ⟨report, report', rfl, hedits, hagain⟩

end Document
end Comfort
