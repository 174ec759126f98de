import Comfort.Proofs.Json.Decoded
import Comfort.Report.Check
import Comfort.Report.Codec

/-!
Reports are decoded from what they are written as.

A record comes back from its written form whatever is in it.  A report comes back if the offsets of
its notes are numbers that can be read, and otherwise nothing is read: `Report.ofJson?_toJson`.
-/

namespace Comfort

open Json (optional? string? nat? strings? natLimit)

/-! ## Records -/

theorem ElementStyle.ofJson?_toJson (s : ElementStyle) : ofJson? s.toJson = some s := by
  cases s <;> rfl

theorem StageElement.ofJson?_toJson (e : StageElement) : ofJson? e.toJson = some e := by
  have hread : ofJson? e.toJson = (do
      let style ← ElementStyle.ofJson? e.style.toJson
      let id ← optional? string? (some (.ofOption .str e.id))
      let speaker ← optional? string? (some (.ofOption .str e.speaker))
      return { style := style, id := id, speaker := speaker, speakerUnknown := e.speakerUnknown,
               text := e.text }) := rfl
  have hid := Json.optional?_ofOption (fun id => id) e.id
  have hspeaker := Json.optional?_ofOption (fun speaker => speaker) e.speaker
  rw [hread, e.style.ofJson?_toJson, hid, hspeaker, Option.map_id', Option.map_id']
  rfl

theorem Stage.ofJson?_toJson (s : Stage) : ofJson? s.toJson = some s := by
  have hread : ofJson? s.toJson = (do
      let id ← optional? string? (some (.ofOption .str s.id))
      let elements ← (s.elements.map StageElement.toJson).mapM StageElement.ofJson?
      return { id := id, name := s.name, elements := elements }) := rfl
  have hid := Json.optional?_ofOption (fun id => id) s.id
  rw [hread, hid, Option.map_id', Json.mapM_map_some fun e _ => e.ofJson?_toJson]
  rfl

theorem Record.ofJson?_toJson (r : Record) : ofJson? r.toJson = some r := by
  have hread : ofJson? r.toJson = (do
      let name ← optional? string? (some (.ofOption .str r.name))
      let description ← optional? string? (some (.ofOption .str r.description))
      let unlockedDescription ← optional? string? (some (.ofOption .str r.unlockedDescription))
      let comments ← strings? (.strings r.comments)
      let stages ← (r.stages.map Stage.toJson).mapM Stage.ofJson?
      return { name := name, description := description,
               unlockedDescription := unlockedDescription, comments := comments,
               stages := stages }) := rfl
  have hname := Json.optional?_ofOption (fun name => name) r.name
  have hdescription := Json.optional?_ofOption (fun text => text) r.description
  have hunlocked := Json.optional?_ofOption (fun text => text) r.unlockedDescription
  rw [hread, hname, hdescription, hunlocked, Option.map_id', Option.map_id', Option.map_id',
    Json.strings?_strings, Json.mapM_map_some fun s _ => s.ofJson?_toJson]
  rfl

theorem StageElement.wholeNumbers_toJson (e : StageElement) : e.toJson.WholeNumbers :=
  ⟨trivial, Json.wholeNumbers_ofOption e.id, Json.wholeNumbers_ofOption e.speaker, trivial, trivial,
    trivial⟩

theorem Stage.wholeNumbers_toJson (s : Stage) : s.toJson.WholeNumbers :=
  ⟨Json.wholeNumbers_ofOption s.id, trivial,
    Json.wholeNumbers_map fun e _ => e.wholeNumbers_toJson, trivial⟩

theorem Record.wholeNumbers_toJson (r : Record) : r.toJson.WholeNumbers :=
  ⟨Json.wholeNumbers_ofOption r.name, Json.wholeNumbers_ofOption r.description,
    Json.wholeNumbers_ofOption r.unlockedDescription, Json.wholeNumbers_strings r.comments,
    Json.wholeNumbers_map fun s _ => s.wholeNumbers_toJson, trivial⟩

/-! ## Notes -/

namespace TextRange

/-- Both ends are numbers of 64 bits, as all offsets are that a program can hold. -/
def Fits (r : TextRange) : Prop :=
  r.start < natLimit ∧ r.stop < natLimit

instance (r : TextRange) : Decidable r.Fits :=
  inferInstanceAs (Decidable (_ ∧ _))

theorem ofJson?_toJson (r : TextRange) : ofJson? r.toJson = if r.Fits then some r else none := by
  have hread : ofJson? r.toJson = (do
      let start ← nat? (.nat r.start)
      let stop ← nat? (.nat r.stop)
      return { start := start, stop := stop }) := rfl
  rw [hread, Json.nat?_nat, Json.nat?_nat, Json.bind_ite, Json.bind_ite]
  by_cases hstart : r.start < natLimit
  · by_cases hstop : r.stop < natLimit
    · rw [if_pos hstart, if_pos hstop, if_pos ⟨hstart, hstop⟩]
      rfl
    · rw [if_pos hstart, if_neg hstop, if_neg fun h => hstop h.2]
  · rw [if_neg hstart, if_neg fun h => hstart h.1]

/-- What is built from a range comes back if the range does. -/
theorem bind_ofJson?_toJson {α : Type} (f : TextRange → α) (r : TextRange) :
    ((ofJson? r.toJson).bind fun range => some (f range))
      = if r.Fits then some (f r) else none := by
  rw [ofJson?_toJson]
  split <;> rfl

theorem wholeNumbers_toJson {r : TextRange} (h : r.Fits) : r.toJson.WholeNumbers :=
  ⟨Json.wholeNumbers_nat h.1, Json.wholeNumbers_nat h.2, trivial⟩

end TextRange

theorem Diagnostic.ofJson?_toJson (d : Diagnostic) :
    ofJson? d.toJson = if d.range.Fits then some d else none :=
  d.range.bind_ofJson?_toJson fun range => ({ d with range := range } : Diagnostic)

theorem Hover.ofJson?_toJson (h : Hover) :
    ofJson? h.toJson = if h.range.Fits then some h else none :=
  h.range.bind_ofJson?_toJson fun range => ({ h with range := range } : Hover)

theorem Completion.ofJson?_toJson (c : Completion) :
    ofJson? c.toJson = if c.range.Fits then some c else none := by
  have hread : ofJson? c.toJson = (do
      let range ← TextRange.ofJson? c.range.toJson
      let candidates ← strings? (.strings c.candidates)
      return { range := range, candidates := candidates }) := rfl
  rw [hread, Json.strings?_strings]
  exact c.range.bind_ofJson?_toJson fun range => { c with range := range }

theorem Word.ofJson?_toJson (w : Word) :
    ofJson? w.toJson = if w.range.Fits then some w else none :=
  w.range.bind_ofJson?_toJson fun range => ({ w with range := range } : Word)

theorem Edit.ofJson?_toJson (e : Edit) :
    ofJson? e.toJson = if e.range.Fits then some e else none :=
  e.range.bind_ofJson?_toJson fun range => ({ e with range := range } : Edit)

/-! ## Reports -/

namespace Report

def Fits (r : Report) : Prop :=
  ∀ e ∈ r.ranges, e.2.Fits

instance (r : Report) : Decidable r.Fits :=
  List.decidableBAll _ _

theorem fits_iff {r : Report} : r.Fits ↔
    (∀ d ∈ r.diagnostics, d.range.Fits) ∧ (∀ h ∈ r.hovers, h.range.Fits) ∧
    (∀ e ∈ r.edits, e.range.Fits) ∧ (∀ c ∈ r.completions, c.range.Fits) ∧
    ∀ w ∈ r.words, w.range.Fits := by
  simp only [Fits, ranges, List.forall_mem_append, List.forall_mem_map]
  tauto

theorem ofJson?_toJson (r : Report) : ofJson? r.toJson = if r.Fits then some r else none := by
  have hread : ofJson? r.toJson = (do
      let diagnostics ← (r.diagnostics.map Diagnostic.toJson).mapM Diagnostic.ofJson?
      let hovers ← (r.hovers.map Hover.toJson).mapM Hover.ofJson?
      let edits ← (r.edits.map Edit.toJson).mapM Edit.ofJson?
      let completions ← (r.completions.map Completion.toJson).mapM Completion.ofJson?
      let words ← (r.words.map Word.toJson).mapM Word.ofJson?
      let record ← Record.ofJson? r.record.toJson
      return { diagnostics := diagnostics, hovers := hovers, edits := edits,
               completions := completions, words := words, record := record }) := rfl
  rw [hread, Json.mapM_map fun d _ => d.ofJson?_toJson, Json.mapM_map fun h _ => h.ofJson?_toJson,
    Json.mapM_map fun e _ => e.ofJson?_toJson, Json.mapM_map fun c _ => c.ofJson?_toJson,
    Json.mapM_map fun w _ => w.ofJson?_toJson, r.record.ofJson?_toJson]
  simp only [Json.bind_ite, fits_iff, ite_and]
  rfl

theorem wholeNumbers_toJson {r : Report} (h : r.Fits) : r.toJson.WholeNumbers := by
  obtain ⟨hdiagnostics, hhovers, hedits, hcompletions, hwords⟩ := fits_iff.1 h
  exact
    ⟨Json.wholeNumbers_map fun d hd =>
        ⟨trivial, TextRange.wholeNumbers_toJson (hdiagnostics d hd), trivial⟩,
      Json.wholeNumbers_map fun h hh =>
        ⟨trivial, TextRange.wholeNumbers_toJson (hhovers h hh), trivial⟩,
      Json.wholeNumbers_map fun e he =>
        ⟨TextRange.wholeNumbers_toJson (hedits e he), trivial, trivial⟩,
      Json.wholeNumbers_map fun c hc =>
        ⟨TextRange.wholeNumbers_toJson (hcompletions c hc), Json.wholeNumbers_strings c.candidates,
          trivial⟩,
      Json.wholeNumbers_map fun w hw =>
        ⟨trivial, TextRange.wholeNumbers_toJson (hwords w hw), trivial⟩,
      r.record.wholeNumbers_toJson, trivial⟩

end Report
end Comfort
