import Mathlib.Data.List.Basic
import Comfort.Mote.Speaker
import Comfort.Proofs.Store.Reachable

/-!
Who may speak.

In a reachable store every mote stands under its own id.  The allowed speakers are listed by the ids
of their motes, so each of them is found again under its id, with a schema that the quest schema
allows: `maySpeak_of_mem_allowed`.
-/

namespace Comfort
namespace Store

variable {s t : Store}

/-! ## Motes under their ids -/

/-- Every mote is stored under its own id. -/
def InPlace (s : Store) : Prop :=
  ∀ id mote, s.mote? id = some mote → mote.id = id

theorem inPlace_insertMote (h : s.InPlace) (mote : Mote) : (s.insertMote mote).InPlace := by
  intro id m hm
  rw [mote?_insertMote] at hm
  split at hm
  · next hid =>
    cases hm
    exact hid
  · exact h id m hm

theorem inPlace_foldl_insertMote (h : s.InPlace) (motes : List Mote) :
    (motes.foldl insertMote s).InPlace := by
  induction motes generalizing s with
  | nil => exact h
  | cons mote rest ih => exact ih (inPlace_insertMote h mote)

theorem inPlace_foldl_insertSchema (h : s.InPlace) (schemas : List Schema) :
    (schemas.foldl insertSchema s).InPlace := by
  induction schemas generalizing s with
  | nil => exact h
  | cons schema rest ih => exact ih (s := s.insertSchema schema) h

theorem inPlace_backing (path : String) : InPlace { backing := some path } := by
  intro id m hm
  cases hm

theorem inPlace_openFile {fs : Files} {path : String} (h : openFile fs path = .ok s) :
    s.InPlace := by
  obtain ⟨schemas, motes, -, rfl⟩ := exists_of_openFile h
  exact inPlace_foldl_insertMote (inPlace_foldl_insertSchema (inPlace_backing path) schemas) motes

theorem inPlace_settled (hs : s.Orderly) (h : s.InPlace) (ht : Settled s t) : t.InPlace := by
  intro id m hm
  rw [ht.motes, working?_of_orderly hs] at hm
  obtain ⟨old, hold, rfl⟩ := Option.map_eq_some_iff.1 hm
  exact h id old hold

theorem Reachable.inPlace (h : s.Reachable) : s.InPlace := by
  induction h with
  | empty =>
    intro id m hm
    cases hm
  | openFile h => exact inPlace_openFile h
  | insertSchema schema _ ih => exact ih
  | insertMote hm _ ih => exact inPlace_insertMote ih _
  | update hv ht _ ih =>
    obtain ⟨_, _, rfl⟩ := update_eq_ok.1 ht
    exact ih
  | clear id _ ih => exact ih
  | flush fs hs ih =>
    obtain ⟨t, ht, hsettled⟩ := settle_eq_done hs.sound.orderly
    rw [flush_state ht]
    exact inPlace_settled hs.sound.orderly ih hsettled

/-! ## Allowed speakers -/

/-- A mote with this id is stored, and its schema is one of those that the quest schema allows for
speakers. -/
def MaySpeak (s : Store) (questSchemaId id : String) : Prop :=
  ∃ schemaIds mote, Speaker.allowedSchemas s questSchemaId = .ok schemaIds ∧
    s.mote? id = some mote ∧ mote.schemaId ∈ schemaIds

theorem mem_values (h : s.InPlace) {mote : Mote} :
    mote ∈ s.motes.values ↔ s.mote? mote.id = some mote := by
  constructor
  · intro hmem
    obtain ⟨⟨key, value⟩, hentry, rfl⟩ := List.mem_map.1 hmem
    have hstored : s.mote? key = some value := Keyed.find?_of_mem s.motes.ascending hentry
    rw [h key value hstored]
    exact hstored
  · intro hstored
    exact List.mem_map.2 ⟨(mote.id, mote), Keyed.mem_of_find? hstored, rfl⟩

theorem ascending_values (h : s.InPlace) : s.motes.values.Pairwise fun a b => a.id < b.id := by
  refine List.pairwise_map.2 (s.motes.ascending.imp_of_mem fun {a b} ha hb hlt => ?_)
  have hkey : ∀ e ∈ s.motes.entries, e.2.id = e.1 := fun e he =>
    h e.1 e.2 (Keyed.find?_of_mem s.motes.ascending he)
  rw [hkey a ha, hkey b hb]
  exact hlt

/-- Every stored mote has a working copy, so a list leaves none of them out. -/
theorem list_eq_map (hs : s.Reachable) (schemaIds : List String) :
    s.list schemaIds = (s.motes.values.filter fun mote => schemaIds.contains mote.schemaId).map
      fun mote => mote.changed (s.changes mote.id) := by
  rw [list, ← List.filterMap_eq_map]
  refine List.filterMap_congr fun mote hmem => ?_
  have hstored := (mem_values hs.inPlace).1 (List.mem_filter.1 hmem).1
  rw [working?_of_orderly hs.sound.orderly, hstored]
  rfl

theorem mem_list (hs : s.Reachable) {schemaIds : List String} {mote : Mote} :
    mote ∈ s.list schemaIds ↔ s.working? mote.id = some mote ∧
      ∃ stored, s.mote? mote.id = some stored ∧ stored.schemaId ∈ schemaIds := by
  rw [list_eq_map hs, working?_of_orderly hs.sound.orderly]
  simp only [List.mem_map, List.mem_filter, mem_values hs.inPlace, List.contains_iff_mem]
  constructor
  · rintro ⟨stored, ⟨hstored, hschema⟩, rfl⟩
    have hsame : s.mote? (stored.changed (s.changes stored.id)).id = some stored := hstored
    rw [hsame]
    exact ⟨rfl, stored, rfl, hschema⟩
  · rintro ⟨hworking, stored, hstored, hschema⟩
    have hid : stored.id = mote.id := hs.inPlace mote.id stored hstored
    rw [hstored, Option.map_some, Option.some.injEq] at hworking
    refine ⟨stored, ⟨?_, hschema⟩, ?_⟩
    · rw [hid]
      exact hstored
    · rw [hid]
      exact hworking

theorem ascending_list (hs : s.Reachable) (schemaIds : List String) :
    (s.list schemaIds).Pairwise fun a b => a.id < b.id := by
  rw [list_eq_map hs]
  exact List.pairwise_map.2 ((ascending_values hs.inPlace).filter _)

/-- An allowed speaker is a stored mote of an allowed schema. -/
theorem maySpeak_of_mem_allowed (hs : s.Reachable) {questSchemaId : String}
    {speakers : List Speaker} (h : Speaker.allowed s questSchemaId = .ok speakers)
    {speaker : Speaker} (hmem : speaker ∈ speakers) : s.MaySpeak questSchemaId speaker.id := by
  unfold Speaker.allowed at h
  cases hschemas : Speaker.allowedSchemas s questSchemaId with
  | error e =>
    rw [hschemas] at h
    cases h
  | ok schemaIds =>
    rw [hschemas] at h
    cases h
    obtain ⟨mote, hmote, rfl⟩ := List.mem_map.1 hmem
    obtain ⟨-, stored, hstored, hschema⟩ := (mem_list hs).1 hmote
    exact ⟨schemaIds, stored, hschemas, hstored, hschema⟩

/-! ## A store with speakers -/

def nameTextPointer : Pointer := { text := "data/name/text" }

/-- A quest schema that lets the motes of one schema speak. -/
def gladeSchema : Schema :=
  { id := Schema.questId
    title := none
    name := some nameTextPointer
    root := .object
      [("quest_start_moments", .object []
        (some (.object
          [("element", .object
            [("speech", .object [("speaker", .moteId ["npc"])] none)] none)] none)))] none }

def npcSchema : Schema :=
  { id := "npc", title := none, name := some nameTextPointer, root := .object [] none }

/-- A mote with a display name. -/
def named (id schemaId name : String) : Mote :=
  { id := id, schemaId := schemaId, data := .obj [("name", .obj [("text", .str name)])] }

def gladeStore : Store :=
  (((({} : Store).insertSchema gladeSchema).insertSchema npcSchema).insertMote
    (named "npc_moss" "npc" "Dr. Moss")).insertMote (named "npc_nora" "npc" "Nora")
    |>.insertMote (named "glade" Schema.questId "Glade")

theorem canonical_named (id schemaId name : String) : (named id schemaId name).data.Canonical :=
  ⟨List.pairwise_singleton .., ⟨List.pairwise_singleton .., trivial, trivial⟩, trivial⟩

theorem reachable_gladeStore : gladeStore.Reachable := by
  have hschemas : ((({} : Store).insertSchema gladeSchema).insertSchema npcSchema).Reachable :=
    .insertSchema _ (.insertSchema _ .empty)
  exact .insertMote (canonical_named ..) (.insertMote (canonical_named ..)
    (.insertMote (canonical_named ..) hschemas))

end Store
end Comfort
