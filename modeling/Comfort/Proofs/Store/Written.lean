import Comfort.Proofs.Schema.Written
import Comfort.Proofs.Store.Speakers

/-!
Stores are decoded from what they are written as.

The written form lists what the tables hold, and inserting it in turn fills the tables again, as
every schema and every mote stands under its own id.  That gives the store back where the written
form is nested no deeper than a store file may be, and nothing where it is nested deeper.
-/

namespace Comfort

/-! ## Tables -/

namespace Table

variable {α : Type}

theorem eq_of_entries_eq {t u : Table α} (h : t.entries = u.entries) : t = u := by
  obtain ⟨entries, hasc⟩ := t
  subst h
  rfl

theorem entries_foldl_insert {name : α → String} {entries : List (String × α)} (acc : Table α)
    (h : ∀ e ∈ entries, name e.2 = e.1) :
    ((entries.map Prod.snd).foldl (fun (acc : Table α) a => acc.insert (name a) a) acc).entries
      = entries.foldl (fun acc e => Keyed.set e.1 e.2 acc) acc.entries := by
  induction entries generalizing acc with
  | nil => rfl
  | cons e rest ih =>
    rw [List.map_cons, List.foldl_cons, List.foldl_cons,
      ih (acc.insert (name e.2) e.2) fun f hf => h f (List.mem_cons_of_mem _ hf),
      h e List.mem_cons_self]
    rfl

/-- Inserting the values of a table under their names fills it again. -/
theorem foldl_insert_values {t : Table α} {name : α → String}
    (h : ∀ key a, t.find? key = some a → name a = key) :
    t.values.foldl (fun (acc : Table α) a => acc.insert (name a) a) .empty = t := by
  have hnames : ∀ e ∈ t.entries, name e.2 = e.1 := fun e he =>
    h e.1 e.2 (Keyed.find?_of_mem t.ascending he)
  exact eq_of_entries_eq ((entries_foldl_insert .empty hnames).trans
    (Keyed.ofEntries_of_ascending t.ascending))

theorem exists_find?_of_mem_values {t : Table α} {a : α} (h : a ∈ t.values) :
    ∃ key, t.find? key = some a := by
  obtain ⟨e, he, rfl⟩ := List.mem_map.1 h
  exact ⟨e.1, Keyed.find?_of_mem t.ascending he⟩

end Table

namespace Json

theorem itemsDepth_le {items : List Json} {n : Nat} :
    itemsDepth items ≤ n ↔ ∀ j ∈ items, j.depth ≤ n := by
  induction items with
  | nil => simp [itemsDepth]
  | cons j rest ih => rw [itemsDepth, Nat.max_le, ih, List.forall_mem_cons]

end Json

/-! ## Motes -/

namespace Mote

theorem ofJsonWithin?_toJson {m : Mote} (h : m.data.Canonical) (limit : Nat) :
    ofJsonWithin? limit m.toJson = if m.data.depth ≤ limit then some m else none := by
  have hread : ofJsonWithin? limit m.toJson
      = if limit < m.data.depth then none else some { m with data := m.data.canonical } := rfl
  rw [hread, Json.canonical_eq_self m.data h]
  by_cases hlimit : m.data.depth ≤ limit
  · rw [if_pos hlimit, if_neg (Nat.not_lt.2 hlimit)]
  · rw [if_neg hlimit, if_pos (Nat.lt_of_not_le hlimit)]

end Mote

namespace Store

variable {s : Store}

/-! ## Schemas under their ids -/

/-- Every schema is stored under its own id. -/
def SchemasInPlace (s : Store) : Prop :=
  ∀ id schema, s.schema? id = some schema → schema.id = id

theorem schemasInPlace_backing (path : String) : SchemasInPlace { backing := some path } := by
  intro id schema h
  cases h

theorem schema?_insertSchema (s : Store) (schema : Schema) (id : String) :
    (s.insertSchema schema).schema? id = if schema.id = id then some schema else s.schema? id :=
  Table.find?_insert s.schemas schema.id id schema

theorem schemasInPlace_insertSchema (h : s.SchemasInPlace) (schema : Schema) :
    (s.insertSchema schema).SchemasInPlace := by
  intro id found hfound
  rw [schema?_insertSchema] at hfound
  split at hfound
  · next hid =>
    cases hfound
    exact hid
  · exact h id found hfound

theorem schemasInPlace_foldl_insertSchema (h : s.SchemasInPlace) (schemas : List Schema) :
    (schemas.foldl insertSchema s).SchemasInPlace := by
  induction schemas generalizing s with
  | nil => exact h
  | cons schema rest ih => exact ih (schemasInPlace_insertSchema h schema)

theorem schemasInPlace_foldl_insertMote (h : s.SchemasInPlace) (motes : List Mote) :
    (motes.foldl insertMote s).SchemasInPlace := by
  induction motes generalizing s with
  | nil => exact h
  | cons mote rest ih => exact ih (s := s.insertMote mote) h

theorem schemasInPlace_openFile {fs : Files} {path : String} (h : openFile fs path = .ok s) :
    s.SchemasInPlace := by
  obtain ⟨schemas, motes, -, rfl⟩ := exists_of_openFile h
  exact schemasInPlace_foldl_insertMote
    (schemasInPlace_foldl_insertSchema (schemasInPlace_backing path) schemas) motes

theorem Reachable.schemasInPlace (h : s.Reachable) : s.SchemasInPlace := by
  induction h with
  | empty =>
    intro id schema h
    cases h
  | openFile h => exact schemasInPlace_openFile h
  | insertSchema schema _ ih => exact schemasInPlace_insertSchema ih schema
  | insertMote _ _ ih => exact ih
  | update _ ht _ ih =>
    obtain ⟨_, _, rfl⟩ := update_eq_ok.1 ht
    exact ih
  | clear id _ ih => exact ih
  | flush fs hs ih =>
    obtain ⟨t, ht, hsettled⟩ := settle_eq_done hs.sound.orderly
    rw [flush_state ht]
    intro id schema h
    rw [schema?, hsettled.schemas] at h
    exact ih id schema h

/-! ## Filling a store again -/

theorem foldl_insertSchema (s : Store) (schemas : List Schema) :
    schemas.foldl insertSchema s
      = { s with
          schemas := schemas.foldl (fun acc schema => acc.insert schema.id schema) s.schemas } := by
  induction schemas generalizing s with
  | nil => rfl
  | cons schema rest ih => exact ih (s.insertSchema schema)

theorem foldl_insertMote (s : Store) (motes : List Mote) :
    motes.foldl insertMote s
      = { s with motes := motes.foldl (fun acc mote => acc.insert mote.id mote) s.motes } := by
  induction motes generalizing s with
  | nil => rfl
  | cons mote rest ih => exact ih (s.insertMote mote)

theorem foldl_insert (hs : s.SchemasInPlace) (hm : s.InPlace) (path : String) :
    s.motes.values.foldl insertMote (s.schemas.values.foldl insertSchema { backing := some path })
      = { s with pending := .empty, backing := some path } := by
  rw [foldl_insertSchema, foldl_insertMote]
  dsimp only
  rw [Table.foldl_insert_values hs, Table.foldl_insert_values hm]

/-! ## The written form -/

/-- What a store holds that can be written so that it is read back the same. -/
structure Faithful (s : Store) : Prop where
  /-- The properties of a schema tree stand in the order of their keys. -/
  ordered : ∀ id schema, s.schema? id = some schema → schema.root.Ordered
  /-- The numbers in the data of a mote are whole and within the limits of whole numbers. -/
  whole : ∀ id mote, s.mote? id = some mote → mote.data.WholeNumbers

theorem faithful_backing (path : String) : Faithful { backing := some path } := by
  constructor
  · intro id schema h
    cases h
  · intro id mote h
    cases h

theorem faithful_insertSchema (h : s.Faithful) {schema : Schema} (hschema : schema.root.Ordered) :
    (s.insertSchema schema).Faithful := by
  refine ⟨fun id found hfound => ?_, h.whole⟩
  rw [schema?_insertSchema] at hfound
  split at hfound
  · cases hfound
    exact hschema
  · exact h.ordered id found hfound

theorem faithful_insertMote (h : s.Faithful) {mote : Mote} (hmote : mote.data.WholeNumbers) :
    (s.insertMote mote).Faithful := by
  refine ⟨h.ordered, fun id found hfound => ?_⟩
  rw [mote?_insertMote] at hfound
  split at hfound
  · cases hfound
    exact hmote
  · exact h.whole id found hfound

theorem depth_schema (schema : Schema) :
    schema.toJson.depth = schema.root.toJson.depth + 1 := by
  obtain ⟨id, title, name, root⟩ := schema
  cases title <;> cases name <;>
    simp [Schema.toJson, Json.depth, Json.fieldsDepth, Json.ofOption]

theorem depth_mote (mote : Mote) : mote.toJson.depth = mote.data.depth + 1 := by
  simp [Mote.toJson, Json.depth, Json.fieldsDepth]

theorem depth_toJson_le : s.toJson.depth ≤ nestingLimit ↔
    (∀ schema ∈ s.schemas.values, schema.root.toJson.depth ≤ nestingLimit - outerLevels) ∧
    ∀ mote ∈ s.motes.values, mote.data.depth ≤ nestingLimit - outerLevels := by
  have hdepth : s.toJson.depth ≤ nestingLimit ↔
      Json.itemsDepth (s.schemas.values.map Schema.toJson) ≤ nestingLimit - outerLevels + 1 ∧
      Json.itemsDepth (s.motes.values.map Mote.toJson) ≤ nestingLimit - outerLevels + 1 := by
    simp only [toJson, Json.depth, Json.fieldsDepth, nestingLimit, outerLevels]
    omega
  rw [hdepth, Json.itemsDepth_le, Json.itemsDepth_le]
  simp [depth_schema, depth_mote]

theorem wholeNumbers_toJson (h : s.Faithful) : s.toJson.WholeNumbers := by
  refine ⟨Json.wholeNumbers_map fun schema _ => schema.wholeNumbers_toJson,
    Json.wholeNumbers_map fun mote hmote => ?_, trivial⟩
  obtain ⟨id, hid⟩ := Table.exists_find?_of_mem_values hmote
  exact ⟨trivial, trivial, h.whole id mote hid, trivial⟩

/-- A store file has no fields that are passed over. -/
theorem keeps_toJson (s : Store) : fileShape.Keeps s.toJson := by
  refine Json.Shape.keeps_record fun e he => ?_
  rcases List.mem_cons.1 he with rfl | he
  · refine ⟨.list (.ofNames Schema.fieldNames), rfl, Json.Shape.keeps_list fun j hj => ?_⟩
    obtain ⟨schema, _, rfl⟩ := List.mem_map.1 hj
    exact Json.Shape.keeps_ofNames (by simp [Schema.fieldNames])
  · cases List.mem_singleton.1 he
    refine ⟨.list (.ofNames Mote.fieldNames), rfl, Json.Shape.keeps_list fun j hj => ?_⟩
    obtain ⟨mote, _, rfl⟩ := List.mem_map.1 hj
    exact Json.Shape.keeps_ofNames (by simp [Mote.fieldNames])

/-- The written form gives the store back, without what is queued, where it is not nested too deep. -/
theorem ofJson?_toJson (hs : s.Reachable) (h : s.Faithful) (path : String) :
    ofJson? path s.toJson
      = if s.toJson.depth ≤ nestingLimit
        then some { s with pending := .empty, backing := some path } else none := by
  have hread : ofJson? path s.toJson = (do
      let limit := nestingLimit - outerLevels
      let schemas ← (s.schemas.values.map Schema.toJson).mapM (Schema.ofJsonWithin? limit)
      let motes ← (s.motes.values.map Mote.toJson).mapM (Mote.ofJsonWithin? limit)
      return motes.foldl insertMote (schemas.foldl insertSchema { backing := some path })) := rfl
  have hschemas := Json.mapM_map (p := fun schema : Schema =>
      schema.root.toJson.depth ≤ nestingLimit - outerLevels) fun schema hschema => by
    obtain ⟨id, hid⟩ := Table.exists_find?_of_mem_values hschema
    exact Schema.ofJsonWithin?_toJson (h.ordered id schema hid) (nestingLimit - outerLevels)
  have hmotes := Json.mapM_map (p := fun mote : Mote =>
      mote.data.depth ≤ nestingLimit - outerLevels) fun mote hmote => by
    obtain ⟨id, hid⟩ := Table.exists_find?_of_mem_values hmote
    exact Mote.ofJsonWithin?_toJson (hs.sound.canonical id mote hid) (nestingLimit - outerLevels)
  rw [hread]
  dsimp only
  rw [hschemas, hmotes]
  by_cases hdepth : s.toJson.depth ≤ nestingLimit
  · obtain ⟨hs', hm'⟩ := depth_toJson_le.1 hdepth
    rw [if_pos hdepth, if_pos hs', if_pos hm', ← foldl_insert hs.schemasInPlace hs.inPlace]
    rfl
  · rw [if_neg hdepth]
    by_cases hs' : ∀ schema ∈ s.schemas.values,
        schema.root.toJson.depth ≤ nestingLimit - outerLevels
    · rw [if_pos hs', if_neg fun hm' => hdepth (depth_toJson_le.2 ⟨hs', hm'⟩)]
      rfl
    · rw [if_neg hs']
      rfl

end Store
end Comfort
