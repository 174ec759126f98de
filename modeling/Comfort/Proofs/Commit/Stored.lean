import Comfort.Proofs.Commit.Run
import Comfort.Proofs.Commit.Tree

/-!
What a commit leaves in the store.

A commit of a record with plain and distinct ids succeeds, and what the mote holds afterwards is the
record: each text at its pointer, the comments, and the tree of the stages.  Beside these five
pointers the data is what it was, except that no object is left empty above them.
-/

namespace Comfort
namespace Commit

open Json (under editAll Diverge)

/-- The paths that a commit writes to. -/
def writtenPaths : List (List String) :=
  [["name", "text"], ["description", "text"], ["unlocked_description", "text"],
    ["wip", "comments"], ["stages"]]

theorem diverge_under_stages {path : List String} (h : Diverge ["stages"] path)
    {edits : List (List String × Option Json)} : ∀ e ∈ under ["stages"] edits, Diverge e.1 path := by
  intro e he
  obtain ⟨f, _, rfl⟩ := List.mem_map.1 he
  exact h.append f.1

theorem diverge_later {path : List String} {a b : List (List String × Option Json)}
    (ha : ∀ e ∈ a, Diverge e.1 path) (hb : Diverge ["stages"] path) :
    ∀ e ∈ a ++ under ["stages"] b, Diverge e.1 path := by
  intro e he
  rcases List.mem_append.1 he with he | he
  · exact ha e he
  · exact diverge_under_stages hb e he

section

variable (r : Record) (moteId : String) (data : Json)

theorem at?_name :
    (editAll (recordEdits r moteId) data).at? ["name", "text"] = r.name.map .str := by
  refine Json.at?_editAll_of_mem (a := []) (List.cons_ne_nil _ _) (diverge_later ?_ (by decide)) data
  simp only [List.mem_cons, List.not_mem_nil, or_false, forall_eq_or_imp, forall_eq]
  decide

theorem at?_description :
    (editAll (recordEdits r moteId) data).at? ["description", "text"]
      = r.description.map .str := by
  refine Json.at?_editAll_of_mem (a := [_]) (List.cons_ne_nil _ _) (diverge_later ?_ (by decide)) data
  simp only [List.mem_cons, List.not_mem_nil, or_false, forall_eq_or_imp, forall_eq]
  decide

theorem at?_unlockedDescription :
    (editAll (recordEdits r moteId) data).at? ["unlocked_description", "text"]
      = r.unlockedDescription.map .str := by
  refine Json.at?_editAll_of_mem (a := [_, _]) (List.cons_ne_nil _ _)
    (diverge_later ?_ (by decide)) data
  simp only [List.mem_cons, List.not_mem_nil, or_false, forall_eq_or_imp, forall_eq]
  decide

theorem at?_comments :
    (editAll (recordEdits r moteId) data).at? ["wip", "comments"] = commentsJson r := by
  refine Json.at?_editAll_of_mem (a := [_, _, _]) (List.cons_ne_nil _ _)
    (diverge_later ?_ (by decide)) data
  simp only [List.mem_cons, List.not_mem_nil, or_false, forall_eq]
  decide

theorem at?_stages :
    (editAll (recordEdits r moteId) data).at? ["stages"] = stagesValue r moteId := by
  rw [Json.at?_cons, field?_recordEdits]
  show (stagesValue r moteId).bind (Json.at? []) = stagesValue r moteId
  cases stagesValue r moteId <;> rfl

/-- Beside what it writes a commit changes nothing. -/
theorem at?_of_diverge {path : List String} (h : ∀ p ∈ writtenPaths, Diverge p path) :
    (editAll (recordEdits r moteId) data).at? path = data.at? path := by
  refine Json.at?_editAll_of_diverge (diverge_later ?_ ?_) data
  · simp only [List.mem_cons, List.not_mem_nil, or_false, forall_eq_or_imp, forall_eq]
    exact ⟨h _ (by decide), h _ (by decide), h _ (by decide), h _ (by decide), h _ (by decide)⟩
  · exact h _ (by decide)

end

/-- The data of a mote after a commit. -/
structure Holds (r : Record) (old data : Json) : Prop where
  name : namePointer.lookup? data = r.name.map .str
  description : descriptionPointer.lookup? data = r.description.map .str
  unlockedDescription :
    unlockedDescriptionPointer.lookup? data = r.unlockedDescription.map .str
  comments :
    commentsPointer.lookup? data = if r.comments = [] then none else some (.strings r.comments)
  stages : stagesPointer.lookup? data = stagesJson r
  frame : ∀ path, (∀ p ∈ writtenPaths, Diverge p path) → data.at? path = old.at? path
  pruned : ∀ key ∈ parentKeys, data.field? key ≠ some (.obj [])

theorem holds_recordEdits {r : Record} (hr : r.Identified) (moteId : String) (data : Json) :
    Holds r data (editAll (recordEdits r moteId) data) := by
  constructor
  · have hp : namePointer.fieldPath? = some ["name", "text"] := rfl
    rw [Pointer.lookup?_of_fieldPath? hp]
    exact at?_name r moteId data
  · have hp : descriptionPointer.fieldPath? = some ["description", "text"] := rfl
    rw [Pointer.lookup?_of_fieldPath? hp]
    exact at?_description r moteId data
  · have hp : unlockedDescriptionPointer.fieldPath? = some ["unlocked_description", "text"] := rfl
    rw [Pointer.lookup?_of_fieldPath? hp]
    exact at?_unlockedDescription r moteId data
  · have hp : commentsPointer.fieldPath? = some ["wip", "comments"] := rfl
    rw [Pointer.lookup?_of_fieldPath? hp, at?_comments, commentsJson]
    simp only [List.isEmpty_iff]
  · have hp : stagesPointer.fieldPath? = some ["stages"] := rfl
    rw [Pointer.lookup?_of_fieldPath? hp, at?_stages]
    exact stagesValue_eq_stagesJson hr moteId
  · exact fun path h => at?_of_diverge r moteId data h
  · intro key hk
    rw [field?_recordEdits]
    exact effect_ne_emptyObject r moteId hk (data.field? key)

/-- A commit into a store without a file stores the record.  Nothing is queued afterwards, and every
other mote is its working copy. -/
theorem run_stores_record {s : Store} (hs : s.Reachable) (hb : s.backing = none)
    {moteId schemaId : String} {mote : Mote} (hm : s.mote? moteId = some mote) {schema : Schema}
    (hschema : s.schema? schemaId = some schema) (hname : schema.name.isSome) {r : Record}
    (hr : r.Identified) (files : Files) :
    ∃ t data, run r moteId schemaId s files = .done t () ∧
      t.store.mote? moteId = some { mote with data := data } ∧ Holds r mote.data data ∧
      t.store.schemas = s.schemas ∧ t.store.pending = .empty ∧
      ∀ id, id ≠ moteId → t.store.mote? id = s.working? id := by
  have hready : Ready moteId schemaId s := by
    refine ⟨?_, schema, hschema, hname⟩
    rw [hm]
    rfl
  obtain ⟨t, ht, _, hcommitted⟩ := run_eq_done (r := r) hs.sound hb hready files
  refine ⟨t, editAll (recordEdits r moteId) mote.data, ht, ?_, holds_recordEdits hr moteId mote.data,
    hcommitted.schemas, hcommitted.pending, hcommitted.others⟩
  rw [hcommitted.own, hm, Option.map_some, Mote.changed, (laidOut_changes r moteId).2]

/-- A stage with a line that a speaker says and one that nobody says. -/
def groveRecord : Record :=
  { name := some "Grove"
    stages :=
      [{ id := some "s1"
         name := "One"
         elements :=
           [{ style := .dialogue, id := some "e2", speaker := some "npc", speakerUnknown := false
              text := "Hello" },
             { style := .text, id := some "e1", speaker := none, speakerUnknown := false
               text := "Silence." }] }] }

theorem identified_groveRecord : groveRecord.Identified := by
  have hplain : ∀ s : String, s ≠ "" → '/' ∉ s.toList → PlainId (some s) :=
    fun s hne hslash => ⟨s, rfl, hne, hslash⟩
  constructor
  · intro stage hs
    rw [List.mem_singleton.1 hs]
    exact hplain "s1" (by decide) (by decide)
  · exact List.nodup_singleton _
  · intro stage hs element he
    rw [List.mem_singleton.1 hs] at he
    rcases List.mem_cons.1 he with rfl | he
    · exact hplain "e2" (by decide) (by decide)
    · rw [List.mem_singleton.1 he]
      exact hplain "e1" (by decide) (by decide)
  · intro stage hs
    rw [List.mem_singleton.1 hs]
    decide

theorem run_stores_grove :
    ∃ t data, run groveRecord "grove" "quest" questStore .empty = .done t () ∧
      t.store.mote? "grove" = some { questMote with data := data } ∧
      namePointer.lookup? data = some (.str "Grove") ∧
      commentsPointer.lookup? data = none ∧
      stagesPointer.lookup? data
        = some (.obj [("s1", .obj
            [("moments", .obj
              [("e1", .obj
                [("element", .obj [("style", .str "Text"), ("text", .obj [("text", .str "Silence.")])]),
                  ("order", .nat 1)]),
                ("e2", .obj
                  [("element", .obj
                    [("speech", .obj
                      [("speaker", .str "npc"), ("text", .obj [("text", .str "Hello")])]),
                      ("style", .str "Dialogue")]),
                    ("order", .nat 0)])]),
              ("name", .str "One"), ("order", .nat 0)])]) := by
  have hm : questStore.mote? "grove" = some questMote := rfl
  have hschema : questStore.schema? "quest" = some questSchema := rfl
  obtain ⟨t, data, ht, hmote, hdata, -⟩ := run_stores_record reachable_questStore rfl hm hschema rfl
    identified_groveRecord .empty
  exact ⟨t, data, ht, hmote, hdata.name, hdata.comments, hdata.stages⟩

end Commit
end Comfort
