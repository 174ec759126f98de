import Comfort.Proofs.Schema.Governs
import Comfort.Proofs.Store.Speakers

/-!
Which motes are allowed as speakers.

`Universe` lists the answers to that question with the reason for each: there is no quest schema,
its place for speakers cannot be found, what is there refers to no schemas, or it names schemas, and
then the answer `Lists` their motes.  Each store and quest schema has one answer, which is the one
that `Speaker.allowed` gives: `allowed_eq_iff`.
-/

namespace Comfort

/-! ## Faults of a schema that is there -/

namespace SchemaNode

theorem select_ne_notFound (node : SchemaNode) (sample : Option Json) (path : List String)
    (id : String) : node.select sample path ≠ .error (.notFound id) := by
  intro h
  cases node with
  | oneOf variants =>
    rw [select] at h
    split at h <;> cases h
  | _ => cases h

/-- Following a path has other faults than a schema that is not there. -/
theorem follow_ne_notFound (path rest : List String) (node : SchemaNode) (sample : Option Json)
    (id : String) : node.follow path rest sample ≠ .error (.notFound id) := by
  induction rest generalizing path node sample with
  | nil => exact select_ne_notFound node sample path id
  | cons segment rest ih =>
    have hselect := select_ne_notFound node sample path id
    rw [follow]
    cases hs : node.select sample path with
    | error cause =>
      rw [hs] at hselect
      exact hselect
    | ok node =>
      dsimp only [bind, Except.bind]
      cases node.child? segment with
      | none =>
        intro h
        cases h
      | some child => exact ih (path ++ [segment]) child (sample.bind fun j => j.field? segment)

end SchemaNode

/-! ## Motes as speakers -/

namespace Store

/-- A mote with this display name: the text stands where the schema of the mote says. -/
def HasName (s : Store) (mote : Mote) (name : String) : Prop :=
  ∃ schema pointer, s.schema? mote.schemaId = some schema ∧ schema.name = some pointer ∧
    pointer.lookup? mote.data = some (.str name)

/-- The stored motes of some schemas as speakers, each of them once. -/
structure Lists (s : Store) (schemaIds : List String) (speakers : List Speaker) : Prop where
  ascending : speakers.Pairwise fun a b => a.id < b.id
  stored : ∀ id, (∃ speaker ∈ speakers, speaker.id = id) ↔
    ∃ mote, s.mote? id = some mote ∧ mote.schemaId ∈ schemaIds
  /-- The display names are those of the working copies. -/
  named : ∀ speaker ∈ speakers, ∃ mote, s.working? speaker.id = some mote ∧
    ∀ name, speaker.name = some name ↔ s.HasName mote name

/-- The answers to the question for the speakers of a quest schema. -/
inductive Universe (s : Store) (questSchemaId : String) :
    Except SchemaError (List Speaker) → Prop where
  | noSchema (hschema : s.schema? questSchemaId = none) :
      Universe s questSchemaId (.error (.notFound questSchemaId))
  | noPlace {schema : Schema} {fault : SchemaError}
      (hschema : s.schema? questSchemaId = some schema)
      (hplace : schema.resolve Speaker.path (Speaker.sample questSchemaId) = .error fault) :
      Universe s questSchemaId (.error fault)
  | noReference {schema : Schema} {node : SchemaNode}
      (hschema : s.schema? questSchemaId = some schema)
      (hplace : schema.resolve Speaker.path (Speaker.sample questSchemaId) = .ok node)
      (hnode : ∀ schemaIds, node = .moteId schemaIds → schemaIds = []) :
      Universe s questSchemaId
        (.error (.notAMoteReference "quest_start_moments/anykey/element/speech/speaker"))
  | speakers {schema : Schema} {schemaIds : List String} {speakers : List Speaker}
      (hschema : s.schema? questSchemaId = some schema)
      (hplace : schema.resolve Speaker.path (Speaker.sample questSchemaId)
        = .ok (.moteId schemaIds))
      (hsome : schemaIds ≠ []) (hlists : s.Lists schemaIds speakers) :
      Universe s questSchemaId (.ok speakers)

variable {s : Store} {questSchemaId : String} {schemaIds : List String}

theorem nameOf?_eq_some {mote : Mote} {name : String} :
    Speaker.nameOf? s mote = some name ↔ s.HasName mote name := by
  simp only [Speaker.nameOf?, HasName, Option.bind_eq_bind, Option.bind_eq_some_iff]
  constructor
  · rintro ⟨schema, hschema, pointer, hpointer, value, hvalue, hstring⟩
    rw [SchemaNode.string?_eq_some] at hstring
    rw [hstring] at hvalue
    exact ⟨schema, pointer, hschema, hpointer, hvalue⟩
  · rintro ⟨schema, pointer, hschema, hpointer, hvalue⟩
    exact ⟨schema, hschema, pointer, hpointer, _, hvalue, rfl⟩

theorem Lists.nodup {speakers : List Speaker} (h : s.Lists schemaIds speakers) :
    speakers.Nodup := by
  refine h.ascending.imp fun {x y} hlt heq => ?_
  rw [heq] at hlt
  exact String.lt_irrefl _ hlt

theorem Lists.mem_of_mem {a b : List Speaker} (ha : s.Lists schemaIds a)
    (hb : s.Lists schemaIds b) {speaker : Speaker} (h : speaker ∈ a) : speaker ∈ b := by
  obtain ⟨other, hother, hid⟩ := (hb.stored speaker.id).2 ((ha.stored speaker.id).1 ⟨_, h, rfl⟩)
  obtain ⟨mote, hmote, hname⟩ := ha.named speaker h
  obtain ⟨mote', hmote', hname'⟩ := hb.named other hother
  rw [hid, hmote, Option.some.injEq] at hmote'
  have hsame : other.name = speaker.name := by
    refine Option.ext fun name => ?_
    rw [hname', hname, hmote']
  have heq : other = speaker := by
    cases other
    cases speaker
    cases hid
    cases hsame
    rfl
  rw [← heq]
  exact hother

theorem Lists.eq {a b : List Speaker} (ha : s.Lists schemaIds a) (hb : s.Lists schemaIds b) :
    a = b := by
  have hperm : a.Perm b := (List.perm_ext_iff_of_nodup ha.nodup hb.nodup).2 fun _ =>
    ⟨ha.mem_of_mem hb, hb.mem_of_mem ha⟩
  refine hperm.eq_of_pairwise (fun x y _ _ hxy hyx => ?_) ha.ascending hb.ascending
  exact absurd (String.lt_trans hxy hyx) (String.lt_irrefl _)

theorem lists_list (hs : s.Reachable) (schemaIds : List String) :
    s.Lists schemaIds ((s.list schemaIds).map fun mote =>
      { id := mote.id, name := Speaker.nameOf? s mote }) := by
  constructor
  · exact List.pairwise_map.2 (ascending_list hs schemaIds)
  · intro id
    constructor
    · rintro ⟨speaker, hmem, rfl⟩
      obtain ⟨mote, hmote, rfl⟩ := List.mem_map.1 hmem
      exact ((mem_list hs).1 hmote).2
    · rintro ⟨stored, hstored, hschema⟩
      have hid : stored.id = id := hs.inPlace id stored hstored
      have hworking : s.working? id = some (stored.changed (s.changes id)) := by
        rw [working?_of_orderly hs.sound.orderly, hstored]
        rfl
      have hlisted : stored.changed (s.changes id) ∈ s.list schemaIds := by
        refine (mem_list hs).2 ⟨?_, stored, ?_, hschema⟩
        · rw [← hworking]
          exact congrArg s.working? hid
        · rw [← hstored]
          exact congrArg s.mote? hid
      exact ⟨_, List.mem_map_of_mem hlisted, hid⟩
  · intro speaker hmem
    obtain ⟨mote, hmote, rfl⟩ := List.mem_map.1 hmem
    exact ⟨mote, ((mem_list hs).1 hmote).1, fun name => nameOf?_eq_some⟩

end Store

/-! ## The answer -/

namespace Speaker

variable {store : Store} {questSchemaId : String}

theorem allowed_of_no_schema (h : store.schema? questSchemaId = none) :
    allowed store questSchemaId = .error (.notFound questSchemaId) := by
  rw [allowed, allowedSchemas, h]
  rfl

theorem allowed_of_no_place {schema : Schema} {fault : SchemaError}
    (h : store.schema? questSchemaId = some schema)
    (hplace : schema.resolve path (sample questSchemaId) = .error fault) :
    allowed store questSchemaId = .error fault := by
  rw [allowed, allowedSchemas, h]
  dsimp only
  rw [hplace]
  rfl

theorem allowed_of_no_reference {schema : Schema} {node : SchemaNode}
    (h : store.schema? questSchemaId = some schema)
    (hplace : schema.resolve path (sample questSchemaId) = .ok node)
    (hnode : ∀ schemaIds, node = .moteId schemaIds → schemaIds = []) :
    allowed store questSchemaId = .error (.notAMoteReference (pathText path)) := by
  rw [allowed, allowedSchemas, h]
  dsimp only
  rw [hplace]
  split
  · next heq => cases heq
  · next heq =>
    cases heq
    cases hnode _ rfl
  · rfl

theorem allowed_of_reference {schema : Schema} {schemaIds : List String}
    (h : store.schema? questSchemaId = some schema)
    (hplace : schema.resolve path (sample questSchemaId) = .ok (.moteId schemaIds))
    (hsome : schemaIds ≠ []) :
    allowed store questSchemaId = .ok ((store.list schemaIds).map fun mote =>
      { id := mote.id, name := nameOf? store mote }) := by
  rw [allowed, allowedSchemas, h]
  dsimp only
  rw [hplace]
  cases schemaIds with
  | nil => exact absurd rfl hsome
  | cons first rest => rfl

theorem universe_allowed (hs : store.Reachable) (questSchemaId : String) :
    store.Universe questSchemaId (allowed store questSchemaId) := by
  cases h : store.schema? questSchemaId with
  | none =>
    rw [allowed_of_no_schema h]
    exact .noSchema h
  | some schema =>
    cases hplace : schema.resolve path (sample questSchemaId) with
    | error fault =>
      rw [allowed_of_no_place h hplace]
      exact .noPlace h hplace
    | ok node =>
      by_cases hnode : ∀ schemaIds, node = .moteId schemaIds → schemaIds = []
      · rw [allowed_of_no_reference h hplace hnode]
        exact .noReference h hplace hnode
      · push Not at hnode
        obtain ⟨schemaIds, rfl, hsome⟩ := hnode
        rw [allowed_of_reference h hplace hsome]
        exact .speakers h hplace hsome (Store.lists_list hs schemaIds)

theorem allowed_of_universe (hs : store.Reachable)
    {answer : Except SchemaError (List Speaker)} (h : store.Universe questSchemaId answer) :
    allowed store questSchemaId = answer := by
  cases h with
  | noSchema hschema => exact allowed_of_no_schema hschema
  | noPlace hschema hplace => exact allowed_of_no_place hschema hplace
  | noReference hschema hplace hnode => exact allowed_of_no_reference hschema hplace hnode
  | speakers hschema hplace hsome hlists =>
    rw [allowed_of_reference hschema hplace hsome]
    exact congrArg Except.ok ((Store.lists_list hs _).eq hlists)

theorem allowed_ne_notFound {schema : Schema} (h : store.schema? questSchemaId = some schema)
    (id : String) : allowed store questSchemaId ≠ .error (.notFound id) := by
  have hresolve : schema.resolve path (sample questSchemaId) ≠ .error (.notFound id) :=
    SchemaNode.follow_ne_notFound [] path schema.root ((sample questSchemaId).field? "data") id
  rw [allowed, allowedSchemas, h]
  dsimp only
  cases hr : schema.resolve path (sample questSchemaId) with
  | error fault =>
    rw [hr] at hresolve
    intro heq
    cases heq
    exact hresolve rfl
  | ok node =>
    split
    · next heq => cases heq
    · exact nofun
    · exact nofun

/-- The allowed speakers of a quest schema, or why they cannot be had.  Only a quest schema that is
not there is not found. -/
theorem allowed_eq_iff (hs : store.Reachable) (questSchemaId : String) :
    (∀ answer, allowed store questSchemaId = answer ↔ store.Universe questSchemaId answer) ∧
    ((∃ id, allowed store questSchemaId = .error (.notFound id)) ↔
      store.schema? questSchemaId = none) := by
  refine ⟨fun answer => ⟨?_, allowed_of_universe hs⟩, ?_⟩
  · rintro rfl
    exact universe_allowed hs questSchemaId
  · constructor
    · rintro ⟨id, hid⟩
      cases h : store.schema? questSchemaId with
      | none => rfl
      | some schema => exact absurd hid (allowed_ne_notFound h id)
    · intro h
      exact ⟨questSchemaId, allowed_of_no_schema h⟩

end Speaker

namespace Store

/-- A quest schema that names one schema twice, and another one that is not there. -/
def coveSchema : Schema :=
  { id := Schema.questId
    title := none
    name := none
    root := .object
      [("quest_start_moments", .object []
        (some (.object
          [("element", .oneOf
            [.object [("style", .string (some "Text"))] none,
              .object
                [("speech", .object [("speaker", .moteId ["npc", "spirit", "npc"])] none),
                  ("style", .string (some "Dialogue"))] none])] none)))] none }

def coveMotes : Store :=
  ((((({} : Store).insertSchema coveSchema).insertSchema npcSchema).insertMote
    (named "wisp" "spirit" "Wisp")).insertMote (named "rock" "item" "Rock")).insertMote
      (named "npc_nora" "npc" "Nora")

def coveChange : Change := { pointer := nameTextPointer, value := some (.str "Nora Sea") }

/-- A mote has been given a new name that is not settled yet. -/
def coveStore : Store :=
  { coveMotes with pending := coveMotes.pending.insert "npc_nora" [coveChange] }

theorem reachable_coveStore : coveStore.Reachable := by
  have hmotes : coveMotes.Reachable :=
    .insertMote (canonical_named ..) (.insertMote (canonical_named ..)
      (.insertMote (canonical_named ..) (.insertSchema _ (.insertSchema _ .empty))))
  have hupdate : coveMotes.update "npc_nora" coveChange = .ok coveStore :=
    update_eq_ok.2 ⟨rfl, by decide, rfl⟩
  refine .update (fun v hv => ?_) hupdate hmotes
  cases hv
  exact trivial

theorem allowed_coveStore :
    Speaker.allowed coveStore Schema.questId
      = .ok [⟨"npc_nora", some "Nora Sea"⟩, ⟨"wisp", none⟩] := by
  decide +kernel

end Store

theorem Speaker.allowed_eq_iff_cove :
    Store.coveStore.Universe Schema.questId
      (.ok [⟨"npc_nora", some "Nora Sea"⟩, ⟨"wisp", none⟩]) := by
  have h := (allowed_eq_iff Store.reachable_coveStore Schema.questId).1
  exact (h _).1 Store.allowed_coveStore

end Comfort
