import Comfort.Proofs.Commit.Moments
import Comfort.Proofs.Document.Ids
import Comfort.Proofs.Document.Speakers

/-!
The speakers that a commit stores.

A speaker is written only for an element that refers to a mote that may speak, and the stages of a
record replace all that was stored of stages before.  So whatever stands at a speaker after a commit
refers to such a mote, whichever of several elements with one key it was written for, and whatever
the mote held before.
-/

namespace Comfort

/-! ## The ids of a record that was read -/

theorem plainId_of_isId {s : String} (h : Text.IsId s.toList) : PlainId (some s) := by
  obtain ⟨hne, hchars⟩ := h
  refine ⟨s, rfl, ?_, fun hslash => ?_⟩
  · rintro rfl
    exact hne rfl
  · exact absurd (hchars '/' hslash) (by decide)

theorem Accounts.plain {claims : List Claim} {r : Report} (h : Accounts claims r) :
    r.record.Plain := by
  have hids : ∀ id ∈ r.record.ids, PlainId id := by
    intro id hid
    rw [h.ids] at hid
    obtain ⟨c, hc, rfl⟩ := List.mem_map.1 hid
    exact plainId_of_isId (h.isId c hc)
  constructor
  · intro stage hs
    exact hids _ (List.mem_flatMap.2 ⟨stage, hs, List.mem_cons_self⟩)
  · intro stage hs element he
    refine hids _ (List.mem_flatMap.2 ⟨stage, hs, ?_⟩)
    exact List.mem_cons_of_mem _ (List.mem_map_of_mem he)

theorem exists_of_mem_right {α β : Type} {R : α → β → Prop} {as : List α} {bs : List β}
    (h : List.Forall₂ R as bs) {b : β} (hb : b ∈ bs) : ∃ a, R a b := by
  induction h with
  | nil => cases hb
  | cons hab _ ih =>
    rcases List.mem_cons.1 hb with rfl | hb
    · exact ⟨_, hab⟩
    · exact ih hb

/-- Only a mote that may speak is written as a speaker. -/
theorem HasSpeaker.maySpeak {store : Store} {questSchemaId id : String}
    {diagnostics : List Diagnostic} {written : Option Capture} {e : StageElement}
    (h : HasSpeaker store questSchemaId diagnostics written e) (hid : e.writtenSpeaker? = some id) :
    store.MaySpeak questSchemaId id := by
  unfold StageElement.writtenSpeaker? at hid
  rw [Option.ite_none_right_eq_some] at hid
  obtain ⟨⟨hdialogue, hknown⟩, hspeaker⟩ := hid
  cases h with
  | nobody hstyle hnone =>
    rw [hnone] at hspeaker
    cases hspeaker
  | unknown hstyle hmarked hreported =>
    rw [hmarked] at hknown
    cases hknown
  | found hstyle hmarked hwho hallowed =>
    rw [hwho] at hspeaker
    cases hspeaker
    exact hallowed

namespace Commit

variable {s t : Store} {r : Record} {moteId schemaId : String}

/-- Where the speaker of a moment is stored. -/
def speakerPath (stage moment : String) : List String :=
  elementPath stage moment ++ ["speech", "speaker"]

theorem mem_elements_of_mem_elementsAt {stage moment : String} {e : StageElement}
    (h : e ∈ elementsAt stage moment r.stages) : e ∈ r.elements := by
  obtain ⟨st, hst, he⟩ := List.mem_flatMap.1 h
  exact List.mem_flatMap.2 ⟨st, (List.mem_filter.1 hst).1, (List.mem_filter.1 he).1⟩

theorem at?_speaker_fieldsJson (style : ElementStyle) (speaker speech narration : Option String)
    (h : speech = none → speaker = none) :
    (fieldsJson style speaker speech narration).at? ["speech", "speaker"]
      = speaker.map Json.str := by
  cases speech with
  | none =>
    cases h rfl
    cases narration <;> rfl
  | some text => cases speaker <;> cases narration <;> rfl

theorem at?_speakerPath_of_snoc (hr : r.Plain) (data : Json) {stage moment : String}
    {earlier : List StageElement} {last : StageElement}
    (h : elementsAt stage moment r.stages = earlier ++ [last]) :
    (Json.editAll (recordEdits r moteId) data).at? (speakerPath stage moment)
      = (lastOf StageElement.writtenSpeaker? (earlier ++ [last])).map .str := by
  rw [speakerPath, Json.at?_append, at?_elementPath_of_snoc moteId stage moment hr data h,
    Option.bind_some, mergedJson, at?_speaker_fieldsJson _ _ _ _ speaker_of_speech]

/-- A speaker that stands in a mote after a commit was written for an element of the record. -/
theorem speaker_of_run {files : Files} {u : State} (hs : s.Reachable) (hr : r.Plain)
    (h : run r moteId schemaId s files = .done u ()) :
    ∃ mote, u.store.mote? moteId = some mote ∧ ∀ stage moment value,
      mote.data.at? (speakerPath stage moment) = some value →
      ∃ e ∈ r.elements, ∃ id, e.writtenSpeaker? = some id ∧ value = .str id := by
  obtain ⟨old, -, hmote⟩ := data_of_run hs h
  refine ⟨_, hmote, fun stage moment value hvalue => ?_⟩
  rcases List.eq_nil_or_concat (elementsAt stage moment r.stages) with hnil | ⟨earlier, last, hlast⟩
  · rw [speakerPath, Json.at?_append,
      at?_elementPath_of_nil moteId stage moment hr old.data hnil] at hvalue
    cases hvalue
  · rw [List.concat_eq_append] at hlast
    rw [at?_speakerPath_of_snoc hr old.data hlast] at hvalue
    obtain ⟨id, hid, rfl⟩ := Option.map_eq_some_iff.1 hvalue
    obtain ⟨e, he, hwritten⟩ := mem_of_lastOf hid
    rw [← hlast] at he
    exact ⟨e, mem_elements_of_mem_elementsAt he, id, hwritten, rfl⟩

/-- A commit changes the data of motes only. -/
theorem Committed.maySpeak {questSchemaId id : String} (hs : s.Sound)
    (h : Committed r moteId s t) (hid : s.MaySpeak questSchemaId id) :
    t.MaySpeak questSchemaId id := by
  obtain ⟨schemaIds, mote, hschemas, hmote, hschema⟩ := hid
  have hallowed : Speaker.allowedSchemas t questSchemaId = .ok schemaIds := by
    rw [← hschemas, Speaker.allowedSchemas, Speaker.allowedSchemas, Store.schema?, Store.schema?,
      h.schemas]
  have hstill : ∃ changes, t.mote? id = some (mote.changed changes) := by
    by_cases hown : id = moteId
    · refine ⟨changes r moteId, ?_⟩
      rw [hown] at hmote ⊢
      rw [h.own, hmote, Option.map_some]
    · refine ⟨s.changes id, ?_⟩
      rw [h.others id hown, Store.working?_of_orderly hs.orderly, hmote, Option.map_some]
  obtain ⟨changes, hstill⟩ := hstill
  exact ⟨schemaIds, mote.changed changes, hallowed, hstill, hschema⟩

end Commit

namespace Document

open Commit (speakerPath)
open Store (gladeSchema gladeStore reachable_gladeStore)

theorem plain_of_parse {text : String} {store : Store} {options : ParseOptions} {report : Report}
    (h : parse text store options = .ok report) : report.record.Plain := by
  obtain ⟨p, hp, rfl⟩ := run_of_parse h
  obtain ⟨claims, haccounted, -⟩ := Pass.accounted_run Pass.accounted_empty nofun hp
  exact haccounted.accounts.plain

/-- No speaker dangles.  Where the quest schema is there, each element of a record has no speaker, or
one that is marked as unknown and reported where it is written, or it refers to a stored mote that
may speak.  After a commit of the record, whatever stands at a speaker in the mote refers to such a
mote. -/
theorem speakers_of_parse {text : String} {store : Store} {options : ParseOptions} {report : Report}
    (hs : store.Reachable) (hq : (store.schema? options.questSchemaId).isSome)
    (h : parse text store options = .ok report) :
    List.Forall₂ (HasSpeaker store options.questSchemaId report.diagnostics)
      (voiced (.ofStore store options) false (lines text.toList)) report.record.elements ∧
    ∀ moteId schemaId files t,
      Commit.run report.record moteId schemaId store files = .done t () →
      ∃ mote, t.store.mote? moteId = some mote ∧ ∀ stage moment value,
        mote.data.at? (speakerPath stage moment) = some value →
        ∃ id, value = .str id ∧ t.store.MaySpeak options.questSchemaId id := by
  have hspeakers := hasSpeaker_of_parse hs hq h
  refine ⟨hspeakers, fun moteId schemaId files t ht => ?_⟩
  obtain ⟨mote, hmote, hstored⟩ := Commit.speaker_of_run hs (plain_of_parse h) ht
  refine ⟨mote, hmote, fun stage moment value hvalue => ?_⟩
  obtain ⟨e, he, id, hwritten, hid⟩ := hstored stage moment value hvalue
  refine ⟨id, hid, ?_⟩
  obtain ⟨written, hspeaker⟩ := exists_of_mem_right hspeakers he
  exact (Commit.committed_of_run hs.sound ht).maySpeak hs.sound (hspeaker.maySpeak hwritten)

/-- Two elements with one id: a speaker that is known, and one that is not. -/
def gladeText : String := "Stage: One #s1\nNora: hi #e1\nNobody: hush #e1\n"

def gladeNora : StageElement :=
  { style := .dialogue, id := some "e1", speaker := some "npc_nora", speakerUnknown := false
    text := "hi" }

def gladeNobody : StageElement :=
  { style := .dialogue, id := some "e1", speaker := some "Nobody", speakerUnknown := true
    text := "hush" }

def gladeRecord : Record :=
  { stages := [{ id := some "s1", name := "One", elements := [gladeNora, gladeNobody] }] }

theorem parse_gladeText :
    (parse gladeText gladeStore {}).map (fun r => (r.record, r.diagnostics.length))
      = .ok (gladeRecord, 2) := by
  rw [parse, parseIn_eq_run]
  decide +kernel

theorem ready_gladeStore : Commit.Ready "glade" Schema.questId gladeStore :=
  ⟨rfl, gladeSchema, rfl, rfl⟩

/-- The speaker of the first element stays, and the second one has none to write. -/
theorem speakers_of_parse_glade :
    ∃ report t mote, parse gladeText gladeStore {} = .ok report ∧
      Commit.run report.record "glade" Schema.questId gladeStore .empty = .done t () ∧
      t.store.mote? "glade" = some mote ∧
      mote.data.at? (speakerPath "s1" "e1") = some (.str "npc_nora") ∧
      t.store.MaySpeak Schema.questId "npc_nora" := by
  obtain ⟨report, hr, hparsed⟩ := exists_of_parse_map parse_gladeText
  have hrecord : report.record = gladeRecord := congrArg Prod.fst hparsed
  obtain ⟨t, ht, -⟩ := Commit.run_eq_done (r := report.record)
    reachable_gladeStore.sound rfl ready_gladeStore .empty
  obtain ⟨-, hcommit⟩ := speakers_of_parse reachable_gladeStore rfl hr
  obtain ⟨mote, hmote, hspeakers⟩ := hcommit _ _ _ t ht
  have hstored : mote.data.at? (speakerPath "s1" "e1") = some (.str "npc_nora") := by
    obtain ⟨old, -, hdata⟩ := Commit.data_of_run reachable_gladeStore ht
    have hboth : elementsAt "s1" "e1" report.record.stages = [gladeNora] ++ [gladeNobody] := by
      rw [hrecord]
      decide
    rw [hmote] at hdata
    cases Option.some.inj hdata
    exact Commit.at?_speakerPath_of_snoc (plain_of_parse hr) old.data hboth
  obtain ⟨id, hid, hmay⟩ := hspeakers "s1" "e1" _ hstored
  cases hid
  exact ⟨report, t, mote, hr, ht, hmote, hstored, hmay⟩

end Document
end Comfort
