import Comfort.Proofs.Pass.Inversion
import Comfort.Proofs.Pass.Reading
import Mathlib.Data.List.Forall2
import Mathlib.Data.List.Nodup

/-!
The ids of a document.

Stages and elements take their ids from one common stock, in the order of their lines.  An id that is
written is kept, and reported where it stands earlier already; where none is written, a new one is
derived and an edit writes it down.  `Accounts` says this of a report and the claims that the lines
make.  Each line keeps it (`Pass.accounted_step`), and so does a whole run (`Pass.accounted_run`).
-/

namespace Comfort

open Text (IsId)

/-! ## Ids of a record -/

/-- The id of a stage and those of its elements. -/
def Stage.ids (stage : Stage) : List (Option String) :=
  stage.id :: stage.elements.map StageElement.id

/-- All ids in the order of the document. -/
def Record.ids (r : Record) : List (Option String) :=
  r.stages.flatMap Stage.ids

theorem Stage.ids_addElement (stage : Stage) (element : StageElement) :
    Stage.ids { stage with elements := stage.elements ++ [element] }
      = stage.ids ++ [element.id] := by
  simp only [Stage.ids, List.map_append, List.map_cons, List.map_nil, List.cons_append]

/-! ## Repeated ids -/

/-- The positions whose id stands at an earlier position already. -/
def repeats (ids : List String) : List Nat :=
  (List.range ids.length).filter fun i => (ids[i]?).any (ids.take i).contains

theorem repeats_append_singleton (ids : List String) (id : String) :
    repeats (ids ++ [id]) = repeats ids ++ if id ∈ ids then [ids.length] else [] := by
  have hfront : (List.range ids.length).filter
        (fun i => ((ids ++ [id])[i]?).any ((ids ++ [id]).take i).contains) = repeats ids := by
    refine List.filter_congr fun i hi => ?_
    have hlt : i < ids.length := List.mem_range.1 hi
    rw [List.getElem?_append_left hlt, List.take_append_of_le_length (Nat.le_of_lt hlt)]
  have hlast : ((ids ++ [id])[ids.length]?).any ((ids ++ [id]).take ids.length).contains
      = decide (id ∈ ids) := by
    rw [List.getElem?_concat_length, List.take_left, Option.any_some, List.contains_eq_mem]
  rw [repeats, List.length_append, List.length_singleton, List.range_succ, List.filter_append,
    hfront, List.filter_singleton, hlast]
  by_cases hid : id ∈ ids
  · simp only [hid, decide_true, if_true, cond_true]
  · simp only [hid, decide_false, if_false, cond_false]

theorem repeats_eq_nil {ids : List String} : repeats ids = [] ↔ ids.Nodup := by
  induction ids using List.reverseRecOn with
  | nil => exact ⟨fun _ => List.nodup_nil, fun _ => rfl⟩
  | append_singleton ids id ih =>
    have hnew : (ids ++ [id]).Nodup ↔ ids.Nodup ∧ id ∉ ids := by
      simp only [List.nodup_append, List.nodup_cons, List.not_mem_nil, not_false_eq_true,
        List.nodup_nil, and_true, true_and, List.mem_singleton, forall_eq]
      exact and_congr_right fun _ =>
        ⟨fun h hid => h id hid rfl, fun h a ha heq => h (heq ▸ ha)⟩
    rw [repeats_append_singleton, List.append_eq_nil_iff, ih, hnew]
    by_cases hid : id ∈ ids
    · simp only [hid, if_true, List.cons_ne_nil, not_true_eq_false]
    · simp only [hid, if_false, not_false_eq_true]

/-! ## Claims -/

/-- A header, or an element of a stage: its line, the id that is written there, if there is one, and
the id that it has in the record. -/
structure Claim where
  line : SourceLine
  written : Option Capture
  id : String

namespace Claim

/-- No id is written, so one is derived. -/
def isDerived (c : Claim) : Bool :=
  c.written.isNone

/-- The edit that writes an id down.  It inserts the id at the end of what the line says. -/
def insertion? (c : Claim) : Option Edit :=
  match c.written with
  | some _ => none
  | none =>
    let place := c.line.range.start + Text.byteLength (Text.trimEnd c.line.text.toList)
    some { range := { start := place, stop := place }, newText := " #" ++ c.id }

end Claim

/-- The headers and the elements among lines, each with the id that is written there. -/
def claimants (ctx : ParseContext) (inStage : Bool) (lines : List SourceLine) :
    List (SourceLine × Option Capture) :=
  (ctx.staged inStage lines).filterMap fun (line, inStage) =>
    ((line.meaning ctx.labels).idSlot? inStage).map (line, ·)

/-- The number of headers and elements among lines that have no id. -/
def idsNeeded (ctx : ParseContext) (inStage : Bool) (lines : List SourceLine) : Nat :=
  (claimants ctx inStage lines).countP fun claimant => claimant.2.isNone

/-- Where all lines are headers without an id, each of them needs one. -/
theorem idsNeeded_of_headers {ctx : ParseContext} {inStage : Bool} {lines : List SourceLine}
    (h : ∀ line ∈ lines, ∃ name, line.meaning ctx.labels = .header name none) :
    idsNeeded ctx inStage lines = lines.length := by
  induction lines generalizing inStage with
  | nil => rfl
  | cons line rest ih =>
    obtain ⟨⟨name, hm⟩, hrest⟩ := List.forall_mem_cons.1 h
    have hslot : ((line.meaning ctx.labels).idSlot? inStage).map (line, ·) = some (line, none) := by
      rw [hm]
      rfl
    have hcons : claimants ctx inStage (line :: rest)
        = (line, none) :: claimants ctx
            (ctx.opensStage line || inStage && Session.continuesStage ctx line) rest :=
      List.filterMap_cons_some hslot
    rw [idsNeeded, hcons, List.countP_cons_of_pos rfl, List.length_cons]
    exact congrArg (· + 1) (ih hrest)

def Diagnostic.isDuplicate (d : Diagnostic) : Bool :=
  "Duplicate id: ".toList.isPrefixOf d.message.toList

/-- The diagnostic is about the claim at a position, and stands at the id that is written there. -/
def ReportsAt (claims : List Claim) (i : Nat) (d : Diagnostic) : Prop :=
  ∃ c id, claims[i]? = some c ∧ c.written = some id ∧
    d = ⟨"Duplicate id: " ++ id.value, id.range⟩

theorem ReportsAt.append {claims : List Claim} {i : Nat} {d : Diagnostic}
    (h : ReportsAt claims i d) (c : Claim) : ReportsAt (claims ++ [c]) i d := by
  obtain ⟨b, id, hb, hrest⟩ := h
  have hlt : i < claims.length := (List.getElem?_eq_some_iff.1 hb).1
  exact ⟨b, id, by rw [List.getElem?_append_left hlt, hb], hrest⟩

/-- How a report accounts for the claims of a document. -/
structure Accounts (claims : List Claim) (r : Report) : Prop where
  ids : r.record.ids = claims.map fun c => some c.id
  written : ∀ c ∈ claims, ∀ id, c.written = some id → id.value = c.id ∧ c.line.span.Marks id
  derived : ∀ before c after, claims = before ++ c :: after → c.written = none →
    Ident.IsHex c.id ∧ c.id ∉ before.map Claim.id
  edits : r.edits = claims.filterMap Claim.insertion?
  duplicates : List.Forall₂ (ReportsAt claims) (repeats (claims.map Claim.id))
    (r.diagnostics.filter Diagnostic.isDuplicate)

/-! ## Which diagnostics are about ids -/

theorem isDuplicate_duplicate (id : String) (range : TextRange) :
    Diagnostic.isDuplicate ⟨"Duplicate id: " ++ id, range⟩ = true := by
  rw [Diagnostic.isDuplicate, String.toList_append]
  rfl

namespace Pass

variable {ctx : ParseContext} {p q : Pass} {line : SourceLine} {r r' : Report} {claims : List Claim}
  {written : Option Capture} {id : String} {notes : Notes}

namespace Notes

/-- The duplicates among the diagnostics. -/
def duplicates (notes : Notes) : List Diagnostic :=
  notes.diagnostics.filter Diagnostic.isDuplicate

theorem duplicates_and (a b : Notes) : (a.and b).duplicates = a.duplicates ++ b.duplicates :=
  List.filter_append ..

variable {message : String} {range : TextRange} {completions : List Completion}

theorem duplicates_of_message (h : "Duplicate id: ".toList.isPrefixOf message.toList = false) :
    duplicates { diagnostics := [⟨message, range⟩], completions := completions } = [] := by
  refine List.filter_eq_nil_iff.2 fun d hd => ?_
  rw [List.mem_singleton.1 hd, Diagnostic.isDuplicate, h]
  exact Bool.false_ne_true

theorem duplicates_diagnosticIf {b : Prop} [Decidable b]
    (h : "Duplicate id: ".toList.isPrefixOf message.toList = false) :
    (diagnosticIf b message range).duplicates = [] := by
  refine List.filter_eq_nil_iff.2 fun d hd => ?_
  rw [(mem_diagnosticIf.1 hd).2, Diagnostic.isDuplicate, h]
  exact Bool.false_ne_true

theorem duplicates_ofClaim (seen : List String) (line : SourceLine) (written : Option Capture)
    (id : String) :
    (ofClaim seen line written id).duplicates = (ofClaim seen line written id).diagnostics := by
  refine List.filter_eq_self.2 fun d hd => ?_
  obtain ⟨c, -, -, rfl⟩ := mem_ofClaim.1 hd
  exact isDuplicate_duplicate c.value c.range

theorem IsStray.duplicates_eq_nil (h : notes.IsStray line) : notes.duplicates = [] := by
  rcases h with rfl | rfl | rfl
  · rfl
  · exact duplicates_of_message (by decide)
  · refine duplicates_of_message ?_
    rw [String.toList_append]
    rfl

theorem IsStray.edits_eq_nil (h : notes.IsStray line) : notes.edits = [] := by
  rcases h with rfl | rfl | rfl <;> rfl

end Notes

theorem Speaks.duplicates_eq_nil {c : Option Capture} {who : Option String} {isUnknown : Bool}
    (h : Speaks ctx c who isUnknown notes) : notes.duplicates = [] := by
  cases h with
  | unknown _ _ =>
    refine Notes.duplicates_of_message ?_
    rw [String.toList_append]
    rfl
  | _ => rfl

theorem Speaks.edits_eq_nil {c : Option Capture} {who : Option String} {isUnknown : Bool}
    (h : Speaks ctx c who isUnknown notes) : notes.edits = [] := by
  cases h <;> rfl

/-! ## Steps and runs -/

/-- The ids that a pass has seen are those of the claims. -/
structure Accounted (claims : List Claim) (p : Pass) : Prop where
  accounts : Accounts claims p.report
  seen : ∀ a, a ∈ p.seen ↔ a ∈ claims.map Claim.id

theorem accounted_empty : Accounted [] {} where
  accounts :=
    { ids := rfl
      written := nofun
      derived := fun before c after h => by simp at h
      edits := rfl
      duplicates := .nil }
  seen := fun _ => Iff.rfl

/-- One further claim. -/
theorem Accounted.snoc (h : Accounted claims p) (htakes : Takes p.seen q.seen written id)
    (hmarks : ∀ c, written = some c → line.span.Marks c)
    (hids : q.report.record.ids = p.report.record.ids ++ [some id])
    (hadds : Adds p.report q.report notes)
    (hedits : notes.edits = (Notes.ofClaim p.seen line written id).edits)
    (hdiagnostics : notes.duplicates = (Notes.ofClaim p.seen line written id).duplicates) :
    Accounted (claims ++ [⟨line, written, id⟩]) q := by
  refine ⟨⟨?_, ?_, ?_, ?_, ?_⟩, ?_⟩
  · rw [hids, h.accounts.ids, List.map_append]
    rfl
  · intro c hc d hd
    rcases List.mem_append.1 hc with hc | hc
    · exact h.accounts.written c hc d hd
    · cases List.mem_singleton.1 hc
      exact ⟨htakes.kept d hd, hmarks d hd⟩
  · intro before c after heq hc
    cases after using List.reverseRecOn with
    | nil =>
      obtain ⟨hfront, hlast⟩ := List.append_inj' heq rfl
      cases hlast
      obtain ⟨hfree, seed, hseed⟩ := htakes.derived hc
      rw [← hfront]
      refine ⟨?_, fun hmem => hfree ((h.seen _).2 hmem)⟩
      rw [hseed]
      exact Ident.isHex_derive seed
    | append_singleton after last =>
      have hcut : claims ++ [⟨line, written, id⟩] = (before ++ c :: after) ++ [last] := by
        rw [heq]
        simp
      obtain ⟨hfront, -⟩ := List.append_inj' hcut rfl
      exact h.accounts.derived before c after hfront hc
  · rw [hadds.edits, hedits, h.accounts.edits, List.filterMap_append]
    cases written <;> rfl
  · have hold : List.Forall₂ (ReportsAt (claims ++ [⟨line, written, id⟩]))
        (repeats (claims.map Claim.id)) (p.report.diagnostics.filter Diagnostic.isDuplicate) :=
      h.accounts.duplicates.imp fun _ _ hreports => hreports.append _
    have hnew : List.Forall₂ (ReportsAt (claims ++ [⟨line, written, id⟩]))
        (if id ∈ claims.map Claim.id then [(claims.map Claim.id).length] else [])
        (Notes.ofClaim p.seen line written id).diagnostics := by
      rw [List.length_map]
      cases written with
      | none =>
        have hfree : id ∉ claims.map Claim.id := fun hmem =>
          (htakes.derived rfl).1 ((h.seen _).2 hmem)
        rw [if_neg hfree]
        exact .nil
      | some c =>
        have hvalue : c.value = id := htakes.kept c rfl
        simp only [Notes.ofClaim, Notes.diagnosticIf, hvalue]
        by_cases hseen : id ∈ p.seen
        · rw [if_pos hseen, if_pos ((h.seen _).1 hseen)]
          refine .cons ⟨_, c, List.getElem?_concat_length .., rfl, ?_⟩ .nil
          rw [hvalue]
        · rw [if_neg hseen, if_neg fun hmem => hseen ((h.seen _).2 hmem)]
          exact .nil
    have hdup : q.report.diagnostics.filter Diagnostic.isDuplicate
        = p.report.diagnostics.filter Diagnostic.isDuplicate
          ++ (Notes.ofClaim p.seen line written id).diagnostics := by
      rw [hadds.diagnostics, List.filter_append, ← Notes.duplicates_ofClaim, ← hdiagnostics]
      rfl
    rw [List.map_append, List.map_singleton, repeats_append_singleton, hdup]
    exact List.rel_append hold hnew
  · intro a
    rw [htakes.seen, h.seen, List.map_append, List.mem_append]
    exact or_congr_right List.mem_singleton.symm

theorem accounted_of_passes (h : Accounted claims p) (hp : Passes p q line) :
    Accounted claims q := by
  obtain ⟨hseen, hstages, notes, hstray, hadds⟩ := hp
  have hids : q.report.record.ids = p.report.record.ids := by
    rw [Record.ids, hstages]
    rfl
  have hdup : q.report.diagnostics.filter Diagnostic.isDuplicate
      = p.report.diagnostics.filter Diagnostic.isDuplicate := by
    have hnone := hstray.duplicates_eq_nil
    unfold Notes.duplicates at hnone
    rw [hadds.diagnostics, List.filter_append, hnone, List.append_nil]
  refine ⟨⟨?_, h.accounts.written, h.accounts.derived, ?_, ?_⟩, ?_⟩
  · rw [hids]
    exact h.accounts.ids
  · rw [hadds.edits, hstray.edits_eq_nil, List.append_nil]
    exact h.accounts.edits
  · rw [hdup]
    exact h.accounts.duplicates
  · rw [hseen]
    exact h.seen

theorem accounted_of_opens {name : Capture} (h : Accounted claims p)
    (hm : line.meaning ctx.labels = .header name written) (ho : Opens p q line name written id) :
    Accounted (claims ++ [⟨line, written, id⟩]) q := by
  obtain ⟨htakes, hstages, hadds⟩ := ho
  refine h.snoc htakes (fun c hc => ?_) ?_ hadds ?_ ?_
  · have hslot : (line.meaning ctx.labels).idSlot? false = some (some c) := by
      rw [hm, hc]
      rfl
    exact SourceLine.marks_meaning hslot
  · show q.report.record.stages.flatMap Stage.ids = _
    rw [hstages, List.flatMap_append]
    rfl
  · rfl
  · rw [Notes.duplicates_and, Notes.duplicates_diagnosticIf (by decide), List.nil_append]

theorem accounted_of_plays {speaker : Option Capture} {text : Capture} {who : Option String}
    {isUnknown : Bool} {spoken : Notes} (h : Accounted claims p)
    (hstage : p.report.record.stages ≠ [])
    (hm : line.meaning ctx.labels = .element speaker text written)
    (hs : Speaks ctx speaker who isUnknown spoken)
    (hplays : Plays p q line written id (elementOf speaker text who isUnknown id) spoken) :
    Accounted (claims ++ [⟨line, written, id⟩]) q := by
  obtain ⟨htakes, hstages, hadds⟩ := hplays
  refine h.snoc htakes (fun c hc => ?_) ?_ hadds ?_ ?_
  · have hslot : (line.meaning ctx.labels).idSlot? true = some (some c) := by
      rw [hm, hc]
      rfl
    exact SourceLine.marks_meaning hslot
  · show q.report.record.stages.flatMap Stage.ids = _
    rw [hstages, Record.flatMap_withElement (fun stage => stage.ids_addElement _) hstage]
    rfl
  · show spoken.edits ++ [] ++ _ = _
    rw [hs.edits_eq_nil]
    rfl
  · have hother (style : ElementStyle) :
        "Duplicate id: ".toList.isPrefixOf (Session.missingText style).toList = false := by
      cases style <;> decide
    rw [Notes.duplicates_and, Notes.duplicates_and, hs.duplicates_eq_nil,
      Notes.duplicates_diagnosticIf (hother _)]
    rfl

/-- The claim that a line makes, if it makes one. -/
theorem accounted_step (h : Accounted claims p) (hstage : p.HasStage)
    (hd : p.step ctx line = .done q ()) :
    ∃ claim : Option Claim, Accounted (claims ++ claim.toList) q ∧
      claim.map (fun c => (c.line, c.written))
        = ((line.meaning ctx.labels).idSlot? p.inStage).map (line, ·) := by
  cases effect_of_step hd with
  | passes hm hpasses =>
    refine ⟨none, ?_, ?_⟩
    · rw [Option.toList_none, List.append_nil]
      exact accounted_of_passes h hpasses
    · rw [hm]
      rfl
  | opens hm hopens =>
    refine ⟨some _, accounted_of_opens h hm hopens, ?_⟩
    rw [hm]
    rfl
  | plays hin hm hs hplays =>
    refine ⟨some _, accounted_of_plays h (hstage hin) hm hs hplays, ?_⟩
    rw [hm, hin]
    rfl

theorem accounted_run {lines : List SourceLine} (h : Accounted claims p) (hstage : p.HasStage)
    (hd : p.run ctx lines = .done q ()) :
    ∃ more, Accounted (claims ++ more) q ∧
      more.map (fun c => (c.line, c.written)) = claimants ctx p.inStage lines := by
  induction lines generalizing p claims with
  | nil =>
    cases hd
    refine ⟨[], ?_, rfl⟩
    rw [List.append_nil]
    exact h
  | cons line rest ih =>
    obtain ⟨t, _, ht, hd⟩ := Outcome.andThen_eq_done.1 hd
    obtain ⟨first, hfirst, hslot⟩ := accounted_step h hstage ht
    obtain ⟨more, hmore, hrest⟩ := ih hfirst (hasStage_step hstage ht) hd
    refine ⟨first.toList ++ more, ?_, ?_⟩
    · rw [← List.append_assoc]
      exact hmore
    · have hcut : claimants ctx p.inStage (line :: rest)
          = (((line.meaning ctx.labels).idSlot? p.inStage).map (line, ·)).toList
            ++ claimants ctx t.inStage rest :=
        filterMap_staged_cons _ rest ht
      rw [List.map_append, hrest, hcut, ← hslot]
      cases first <;> rfl

end Pass

/-! ## Readings -/

variable {claims : List Claim} {r : Report}

theorem Accounts.isId (h : Accounts claims r) : ∀ c ∈ claims, IsId c.id.toList := by
  intro c hc
  cases hw : c.written with
  | some id =>
    obtain ⟨hvalue, hid, -⟩ := h.written c hc id hw
    rw [← hvalue]
    exact hid
  | none =>
    obtain ⟨before, after, heq⟩ := List.append_of_mem hc
    exact (h.derived before c after heq hw).1.isId

theorem Accounts.nodup_iff (h : Accounts claims r) :
    r.record.ids.Nodup ↔ r.diagnostics.filter Diagnostic.isDuplicate = [] := by
  have hsome : r.record.ids = (claims.map Claim.id).map some := by
    rw [h.ids, List.map_map]
    rfl
  rw [hsome, List.nodup_map_iff fun _ _ => Option.some.inj, ← repeats_eq_nil]
  rw [← List.length_eq_zero_iff, ← List.length_eq_zero_iff, h.duplicates.length_eq]

/-- Derived ids that are taken nowhere before differ from one another. -/
theorem nodup_derived
    (hfree : ∀ before c after, claims = before ++ c :: after → c.written = none →
      c.id ∉ before.map Claim.id) :
    ((claims.filter Claim.isDerived).map Claim.id).Nodup := by
  induction claims using List.reverseRecOn with
  | nil => exact List.nodup_nil
  | append_singleton claims c ih =>
    have hfront := ih fun before b after heq =>
      hfree before b (after ++ [c]) (by rw [heq, List.append_assoc]; rfl)
    by_cases hc : c.isDerived = true
    · have hlast : c.id ∉ claims.map Claim.id :=
        hfree claims c [] rfl (Option.isNone_iff_eq_none.1 hc)
      rw [List.filter_append, List.filter_cons_of_pos hc, List.filter_nil, List.map_append]
      refine List.nodup_append.2 ⟨hfront, List.nodup_singleton _, fun id hid last hmem heq => ?_⟩
      obtain ⟨b, hb, rfl⟩ := List.mem_map.1 hid
      rw [List.map_singleton, List.mem_singleton] at hmem
      rw [← hmem, ← heq] at hlast
      exact hlast (List.mem_map_of_mem (List.mem_filter.1 hb).1)
    · rw [List.filter_append, List.filter_cons_of_neg hc, List.filter_nil, List.append_nil]
      exact hfront

/-- There are no more derived ids than ids of six digits. -/
theorem Accounts.countP_le_capacity (h : Accounts claims r) :
    claims.countP Claim.isDerived ≤ Ident.capacity := by
  have hnodup : ((claims.filter Claim.isDerived).map Claim.id).Nodup :=
    nodup_derived fun before c after heq hw => (h.derived before c after heq hw).2
  have hhex : ∀ id ∈ (claims.filter Claim.isDerived).map Claim.id, Ident.IsHex id := by
    intro id hid
    obtain ⟨c, hc, rfl⟩ := List.mem_map.1 hid
    obtain ⟨hmem, hw⟩ := List.mem_filter.1 hc
    obtain ⟨before, after, heq⟩ := List.append_of_mem hmem
    exact (h.derived before c after heq (Option.isNone_iff_eq_none.1 hw)).1
  have hbound := Ident.length_le_capacity hnodup hhex
  rw [List.length_map, ← List.countP_eq_length_filter] at hbound
  exact hbound

/-- Lines that are read to their end do not need more ids than there are. -/
theorem Pass.idsNeeded_le_of_run {ctx : ParseContext} {p : Pass} {lines : List SourceLine}
    (h : Pass.run ctx {} lines = .done p ()) : idsNeeded ctx false lines ≤ Ident.capacity := by
  obtain ⟨claims, haccounted, hclaimants⟩ := accounted_run accounted_empty nofun h
  have hcount : idsNeeded ctx false lines = claims.countP Claim.isDerived := by
    show (claimants ctx ({} : Pass).inStage lines).countP _ = _
    rw [← hclaimants, List.countP_map]
    rfl
  rw [hcount]
  exact haccounted.accounts.countP_le_capacity

namespace Document

/-- The ids of a document that is read.  Each header and each element makes one claim, in order, and
the ids of the record are those of the claims.  They can be written as ids.  An id that is written
in the line is taken from there; where none is written, it is one of six digits that is not in use
before, and an edit puts it at the end of the line.  What is reported are the claims whose id is in
use before, each at the id in its line, so that the ids differ when nothing is reported. -/
theorem accounts_of_parse {text : String} {store : Store} {options : ParseOptions} {report : Report}
    (h : parse text store options = .ok report) :
    ∃ claims : List Claim,
      claims.map (fun c => (c.line, c.written))
        = claimants (.ofStore store options) false (lines text.toList) ∧
      Accounts claims report ∧
      (∀ c ∈ claims, IsId c.id.toList) ∧
      (report.diagnostics.filter Diagnostic.isDuplicate).length
        = (repeats (claims.map Claim.id)).length ∧
      (report.record.ids.Nodup ↔ report.diagnostics.filter Diagnostic.isDuplicate = []) := by
  obtain ⟨p, hp, rfl⟩ := run_of_parse h
  have hstage : ({} : Pass).HasStage := nofun
  obtain ⟨claims, haccounted, hclaimants⟩ := Pass.accounted_run Pass.accounted_empty hstage hp
  have haccounts : Accounts claims p.report := haccounted.accounts
  exact ⟨claims, hclaimants, haccounts, haccounts.isId, haccounts.duplicates.length_eq.symm,
    haccounts.nodup_iff⟩

/-- An id that is written twice, with a line between the two that has none. -/
def twinText : String := "Stage: One #s1\r\n> hi \n> yo #s1\n"

def twinDuplicates : List Diagnostic := [⟨"Duplicate id: s1", ⟨28, 30⟩⟩]

theorem parse_twinText :
    (parse twinText {} {}).map
        (fun r => (r.record.ids, r.diagnostics.filter Diagnostic.isDuplicate))
      = .ok ([some "s1", some "3af5e3", some "s1"], twinDuplicates) := by
  rw [parse, parseIn_eq_run]
  decide +kernel

theorem accounts_of_parse_twin :
    ∃ report claims, parse twinText {} {} = .ok report ∧ Accounts claims report ∧
      claims.map (fun c => some c.id) = [some "s1", some "3af5e3", some "s1"] ∧
      report.diagnostics.filter Diagnostic.isDuplicate = twinDuplicates ∧
      ¬ report.record.ids.Nodup := by
  obtain ⟨report, hr, hboth⟩ := exists_of_parse_map parse_twinText
  obtain ⟨hids, hduplicates⟩ := Prod.mk.inj hboth
  obtain ⟨claims, -, haccounts, -, -, hnodup⟩ := accounts_of_parse hr
  refine ⟨report, claims, hr, haccounts, ?_, hduplicates, ?_⟩
  · rw [← haccounts.ids]
    exact hids
  · rw [hnodup, hduplicates]
    exact List.cons_ne_nil _ _

end Document
end Comfort
