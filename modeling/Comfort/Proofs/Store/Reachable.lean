import Comfort.Proofs.Json.Canonical
import Comfort.Proofs.Pointer
import Comfort.Store.Backing

/-!
The stores that a program can come to.

A store is reachable when it comes from an empty one or a file by the operations on stores.  In a
reachable store every queued change addresses a field of a stored mote and writes a canonical value,
so its changes can always be applied, and settling it makes the working copies the stored ones.
-/

namespace Comfort
namespace Change

/-- The path that a change addresses and the value it puts there. -/
def asEdit (c : Change) : List String × Option Json :=
  (c.pointer.fieldPath?.getD [], c.value)

/-- Changes that a store can queue and apply. -/
structure Valid (c : Change) : Prop where
  addressed : c.pointer.fieldPath?.isSome
  canonical : ∀ v, c.value = some v → v.Canonical

theorem Valid.path_ne_nil {c : Change} (h : c.Valid) : c.asEdit.1 ≠ [] := by
  obtain ⟨path, hp⟩ := Option.isSome_iff_exists.1 h.addressed
  rw [asEdit, hp]
  exact (Pointer.segments_of_fieldPath? hp).2

theorem apply_eq_edit {c : Change} (h : c.pointer.fieldPath?.isSome) (data : Json) :
    c.pointer.apply data c.value = .ok (Json.edit c.asEdit.1 c.asEdit.2 data) := by
  obtain ⟨path, hp⟩ := Option.isSome_iff_exists.1 h
  rw [Pointer.apply_of_fieldPath? hp, asEdit, hp]
  rfl

theorem applyAll_eq_editAll {changes : List Change}
    (h : ∀ c ∈ changes, c.pointer.fieldPath?.isSome) (data : Json) :
    applyAll changes data = .done (Json.editAll (changes.map asEdit) data) () := by
  induction changes generalizing data with
  | nil => rfl
  | cons c rest ih =>
    rw [applyAll, apply_eq_edit (h c List.mem_cons_self)]
    exact ih (fun d hd => h d (List.mem_cons_of_mem _ hd)) _

theorem canonical_editAll {changes : List Change} (h : ∀ c ∈ changes, c.Valid) {data : Json}
    (hd : data.Canonical) : (Json.editAll (changes.map asEdit) data).Canonical := by
  refine Json.canonical_editAll (fun e he => ?_) hd
  obtain ⟨c, hc, rfl⟩ := List.mem_map.1 he
  exact (h c hc).canonical

end Change

namespace Mote

/-- A mote with changes applied to its data. -/
def changed (m : Mote) (changes : List Change) : Mote :=
  { m with data := Json.editAll (changes.map Change.asEdit) m.data }

theorem canonical_of_ofJsonWithin? {limit : Nat} {j : Json} {m : Mote}
    (h : ofJsonWithin? limit j = some m) : m.data.Canonical := by
  unfold ofJsonWithin? at h
  simp only [Option.bind_eq_bind, Option.bind_eq_some_iff] at h
  obtain ⟨fields, _, h⟩ := h
  split at h
  · simp only [Option.bind_eq_some_iff] at h
    obtain ⟨id, _, schemaId, _, h⟩ := h
    split at h
    · simp at h
    · simp only [Option.pure_def, Option.some.injEq] at h
      rw [← h]
      exact Json.canonical_canonical _
  · cases h

end Mote

namespace Store

open Json (defaulted? listOf?)

/-- Every store that a program can come to. -/
inductive Reachable : Store → Prop where
  | empty : Reachable {}
  | openFile {fs : Files} {path : String} {s : Store} (h : Store.openFile fs path = .ok s) :
      Reachable s
  | insertSchema {s : Store} (schema : Schema) (h : Reachable s) : Reachable (s.insertSchema schema)
  | insertMote {s : Store} {mote : Mote} (hm : mote.data.Canonical) (h : Reachable s) :
      Reachable (s.insertMote mote)
  | update {s t : Store} {id : String} {change : Change}
      (hv : ∀ v, change.value = some v → v.Canonical) (ht : s.update id change = .ok t)
      (h : Reachable s) : Reachable t
  | clear {s : Store} (id : String) (h : Reachable s) : Reachable (s.clear id)
  | flush {s : Store} (fs : Files) (h : Reachable s) : Reachable (s.flush fs).state.1

/-- Every queued change addresses a field of a stored mote. -/
structure Orderly (s : Store) : Prop where
  stored : ∀ id changes, s.pending.find? id = some changes → (s.mote? id).isSome
  addressed : ∀ id, ∀ c ∈ s.changes id, c.pointer.fieldPath?.isSome

/-- What holds of every reachable store. -/
structure Sound (s : Store) : Prop where
  stored : ∀ id changes, s.pending.find? id = some changes → (s.mote? id).isSome
  valid : ∀ id, ∀ c ∈ s.changes id, c.Valid
  canonical : ∀ id m, s.mote? id = some m → m.data.Canonical

theorem Sound.orderly {s : Store} (h : s.Sound) : s.Orderly :=
  ⟨h.stored, fun id c hc => (h.valid id c hc).addressed⟩

/-! ## Settling -/

theorem working?_of_orderly {s : Store} (h : s.Orderly) (id : String) :
    s.working? id = (s.mote? id).map fun m => m.changed (s.changes id) := by
  unfold working?
  cases s.mote? id with
  | none => rfl
  | some m =>
    dsimp only [bind, Option.bind]
    rw [Change.applyAll_eq_editAll (h.addressed id)]
    rfl

theorem working?_of_changes_eq_nil {s : Store} (h : s.Orderly) {id : String}
    (hnone : s.changes id = []) : s.working? id = s.mote? id := by
  rw [working?_of_orderly h, hnone]
  cases s.mote? id <;> rfl

/-- A store whose working copies have become the stored ones. -/
structure Settled (s t : Store) : Prop where
  schemas : t.schemas = s.schemas
  backing : t.backing = s.backing
  pending : t.pending = .empty
  motes : ∀ id, t.mote? id = s.working? id

theorem settleEntries_eq_done {s : Store} {entries : List (String × List Change)}
    (hasc : Keyed.Ascending entries) (hstored : ∀ e ∈ entries, (s.mote? e.1).isSome)
    (haddressed : ∀ e ∈ entries, ∀ c ∈ e.2, c.pointer.fieldPath?.isSome) :
    ∃ t, settleEntries s entries = .done t () ∧ t.schemas = s.schemas ∧ t.backing = s.backing ∧
      t.pending = s.pending ∧
      ∀ id, t.mote? id = (s.mote? id).map fun m => m.changed ((Keyed.find? id entries).getD []) := by
  induction entries generalizing s with
  | nil =>
    refine ⟨s, rfl, rfl, rfl, rfl, fun id => ?_⟩
    cases s.mote? id <;> rfl
  | cons e rest ih =>
    obtain ⟨key, changes⟩ := e
    obtain ⟨mote, hmote⟩ := Option.isSome_iff_exists.1 (hstored (key, changes) List.mem_cons_self)
    have happly :=
      Change.applyAll_eq_editAll (haddressed (key, changes) List.mem_cons_self) mote.data
    let u : Store := { s with motes := s.motes.insert key (mote.changed changes) }
    have hu : ∀ id, u.mote? id = if key = id then some (mote.changed changes) else s.mote? id :=
      fun id => Table.find?_insert s.motes key id (mote.changed changes)
    have hustored : ∀ e ∈ rest, (u.mote? e.1).isSome := by
      intro e he
      rw [hu]
      split
      · rfl
      · exact hstored e (List.mem_cons_of_mem _ he)
    obtain ⟨t, ht, hschemas, hbacking, hpending, hmotes⟩ := ih (List.pairwise_cons.1 hasc).2 hustored
      fun e he => haddressed e (List.mem_cons_of_mem _ he)
    refine ⟨t, ?_, hschemas, hbacking, hpending, fun id => ?_⟩
    · rw [settleEntries, hmote]
      dsimp only
      rw [happly]
      exact ht
    · rw [hmotes id, hu id]
      by_cases hk : key = id
      · subst hk
        rw [if_pos rfl, hmote, Keyed.find?_tail hasc, Keyed.find?_head]
        rfl
      · rw [if_neg hk, Keyed.find?_cons_of_ne hk]

theorem settle_eq_done {s : Store} (h : s.Orderly) : ∃ t, s.settle = .done t () ∧ Settled s t := by
  let u : Store := { s with pending := .empty }
  have hentry : ∀ e ∈ s.pending.entries, s.pending.find? e.1 = some e.2 :=
    fun e he => Keyed.find?_of_mem s.pending.ascending he
  have hstored : ∀ e ∈ s.pending.entries, (u.mote? e.1).isSome :=
    fun e he => h.stored e.1 e.2 (hentry e he)
  have haddressed : ∀ e ∈ s.pending.entries, ∀ c ∈ e.2, c.pointer.fieldPath?.isSome := by
    intro e he c hc
    refine h.addressed e.1 c ?_
    rw [changes, hentry e he]
    exact hc
  obtain ⟨t, ht, hschemas, hbacking, hpending, hmotes⟩ :=
    settleEntries_eq_done s.pending.ascending hstored haddressed
  refine ⟨t, ht, hschemas, hbacking, hpending, fun id => ?_⟩
  rw [hmotes id, working?_of_orderly h]
  rfl

theorem Settled.changes_eq_nil {s t : Store} (h : Settled s t) (id : String) :
    t.changes id = [] := by
  rw [changes, h.pending]
  rfl

theorem Settled.orderly {s t : Store} (h : Settled s t) : t.Orderly := by
  constructor
  · intro id changes hc
    rw [h.pending] at hc
    cases hc
  · intro id c hc
    rw [h.changes_eq_nil id] at hc
    cases hc

theorem Settled.sound {s t : Store} (hs : s.Sound) (h : Settled s t) : t.Sound := by
  constructor
  · exact h.orderly.stored
  · intro id c hc
    rw [h.changes_eq_nil id] at hc
    cases hc
  · intro id m hm
    rw [h.motes id, working?_of_orderly hs.orderly] at hm
    obtain ⟨old, hold, rfl⟩ := Option.map_eq_some_iff.1 hm
    exact Change.canonical_editAll (hs.valid id) (hs.canonical id old hold)

theorem settle_of_pending {t : Store} (h : t.pending = .empty) : t.settle = .done t () := by
  obtain ⟨schemas, motes, pending, backing⟩ := t
  subst h
  rfl

/-- Flushing a store in which nothing is queued only saves it. -/
theorem flush_of_pending {t : Store} (h : t.pending = .empty) (fs : Files) :
    t.flush fs =
      match t.backing with
      | none => .done (t, fs) ()
      | some path =>
        match t.saveTo fs path with
        | .done fs _ => .done (t, fs) ()
        | .failed fs e => .failed (t, fs) e := by
  rewrite [flush, settle_of_pending h]
  rfl

theorem Settled.settle {s t : Store} (h : Settled s t) : t.settle = .done t () :=
  settle_of_pending h.pending

/-- What is flushed are the working copies. -/
theorem Settled.flush_eq {s t : Store} (h : Settled s t) (hs : s.settle = .done t ())
    (fs : Files) : s.flush fs = t.flush fs := by
  rewrite [flush, hs, flush_of_pending h.pending]
  rfl

theorem flush_state {s t : Store} (h : s.settle = .done t ()) (fs : Files) :
    (s.flush fs).state.1 = t := by
  unfold flush
  rw [h]
  dsimp only
  split
  · rfl
  · split <;> rfl

/-! ## Operations that keep the queue in order -/

theorem orderly_insertSchema {s : Store} (h : s.Orderly) (schema : Schema) :
    (s.insertSchema schema).Orderly :=
  ⟨h.stored, h.addressed⟩

theorem mote?_insertMote (s : Store) (mote : Mote) (id : String) :
    (s.insertMote mote).mote? id = if mote.id = id then some mote else s.mote? id :=
  Table.find?_insert s.motes mote.id id mote

theorem orderly_insertMote {s : Store} (h : s.Orderly) (mote : Mote) :
    (s.insertMote mote).Orderly := by
  constructor
  · intro id changes hc
    rw [mote?_insertMote]
    split
    · rfl
    · exact h.stored id changes hc
  · exact h.addressed

theorem update_eq_ok {s t : Store} {id : String} {change : Change} :
    s.update id change = .ok t ↔ (s.mote? id).isSome ∧ change.pointer.fieldPath?.isSome ∧
      t = { s with pending := s.pending.insert id (s.changes id ++ [change]) } := by
  have hcontains : s.motes.contains id = (s.mote? id).isSome := rfl
  unfold update
  rw [hcontains]
  cases (s.mote? id).isSome with
  | false => simp
  | true =>
    cases change.pointer.fieldPath? with
    | none => simp
    | some path => simp [eq_comm]

theorem changes_update {s t : Store} {id : String} {change : Change}
    (h : s.update id change = .ok t) (k : String) :
    t.changes k = if id = k then s.changes id ++ [change] else s.changes k := by
  obtain ⟨_, _, rfl⟩ := update_eq_ok.1 h
  have hfind : (s.pending.insert id (s.changes id ++ [change])).find? k
      = if id = k then some (s.changes id ++ [change]) else s.pending.find? k :=
    Table.find?_insert s.pending id k _
  rw [changes, hfind]
  split <;> rfl

theorem orderly_update {s t : Store} (h : s.Orderly) {id : String} {change : Change}
    (ht : s.update id change = .ok t) : t.Orderly := by
  obtain ⟨hm, hp, heq⟩ := update_eq_ok.1 ht
  constructor
  · intro k changes hc
    by_cases hk : id = k
    · rw [← hk, heq]
      exact hm
    · rw [heq, Table.find?_insert, if_neg hk] at hc
      rw [heq]
      exact h.stored k changes hc
  · intro k c hc
    rw [changes_update ht] at hc
    by_cases hk : id = k
    · rw [if_pos hk] at hc
      rcases List.mem_append.1 hc with hc | hc
      · exact h.addressed id c hc
      · rw [List.mem_singleton.1 hc]
        exact hp
    · rw [if_neg hk] at hc
      exact h.addressed k c hc

theorem changes_clear (s : Store) (id k : String) :
    (s.clear id).changes k = if id = k then [] else s.changes k := by
  have hfind : (s.clear id).pending.find? k = if id = k then none else s.pending.find? k :=
    Table.find?_erase s.pending id k
  rw [changes, hfind]
  split <;> rfl

theorem orderly_clear {s : Store} (h : s.Orderly) (id : String) : (s.clear id).Orderly := by
  constructor
  · intro k changes hc
    have hfind : (s.clear id).pending.find? k = if id = k then none else s.pending.find? k :=
      Table.find?_erase s.pending id k
    rw [hfind] at hc
    split at hc
    · cases hc
    · exact h.stored k changes hc
  · intro k c hc
    rw [changes_clear] at hc
    split at hc
    · cases hc
    · exact h.addressed k c hc

theorem orderly_flush {s : Store} (h : s.Orderly) (fs : Files) : (s.flush fs).state.1.Orderly := by
  obtain ⟨t, ht, hsettled⟩ := settle_eq_done h
  rw [flush_state ht]
  exact hsettled.orderly

/-! ## Every reachable store is sound -/

theorem sound_empty : Sound {} := by
  constructor
  · intro id changes h
    cases h
  · intro id c h
    cases h
  · intro id m h
    cases h

theorem sound_backing (path : String) : Sound { backing := some path } :=
  ⟨sound_empty.stored, sound_empty.valid, sound_empty.canonical⟩

theorem sound_insertSchema {s : Store} (h : s.Sound) (schema : Schema) :
    (s.insertSchema schema).Sound :=
  ⟨h.stored, h.valid, h.canonical⟩

theorem sound_insertMote {s : Store} (h : s.Sound) {mote : Mote} (hm : mote.data.Canonical) :
    (s.insertMote mote).Sound := by
  constructor
  · exact (orderly_insertMote h.orderly mote).stored
  · exact h.valid
  · intro id m hf
    rw [mote?_insertMote] at hf
    split at hf
    · cases hf
      exact hm
    · exact h.canonical id m hf

theorem sound_update {s t : Store} (h : s.Sound) {id : String} {change : Change}
    (hv : ∀ v, change.value = some v → v.Canonical) (ht : s.update id change = .ok t) :
    t.Sound := by
  obtain ⟨_, hp, heq⟩ := update_eq_ok.1 ht
  constructor
  · exact (orderly_update h.orderly ht).stored
  · intro k c hc
    rw [changes_update ht] at hc
    by_cases hk : id = k
    · rw [if_pos hk] at hc
      rcases List.mem_append.1 hc with hc | hc
      · exact h.valid id c hc
      · rw [List.mem_singleton.1 hc]
        exact ⟨hp, hv⟩
    · rw [if_neg hk] at hc
      exact h.valid k c hc
  · rw [heq]
    exact h.canonical

theorem sound_clear {s : Store} (h : s.Sound) (id : String) : (s.clear id).Sound := by
  constructor
  · exact (orderly_clear h.orderly id).stored
  · intro k c hc
    rw [changes_clear] at hc
    split at hc
    · cases hc
    · exact h.valid k c hc
  · exact h.canonical

theorem sound_flush {s : Store} (h : s.Sound) (fs : Files) : (s.flush fs).state.1.Sound := by
  obtain ⟨t, ht, hsettled⟩ := settle_eq_done h.orderly
  rw [flush_state ht]
  exact hsettled.sound h

theorem sound_foldl_insertSchema {s : Store} (h : s.Sound) (schemas : List Schema) :
    (schemas.foldl insertSchema s).Sound := by
  induction schemas generalizing s with
  | nil => exact h
  | cons schema rest ih => exact ih (sound_insertSchema h schema)

theorem sound_foldl_insertMote {s : Store} (h : s.Sound) {motes : List Mote}
    (hm : ∀ m ∈ motes, m.data.Canonical) : (motes.foldl insertMote s).Sound := by
  induction motes generalizing s with
  | nil => exact h
  | cons mote rest ih =>
    have hfirst := sound_insertMote h (hm mote List.mem_cons_self)
    exact ih hfirst fun m hr => hm m (List.mem_cons_of_mem _ hr)

theorem mem_of_mapM {α β : Type} {decode : α → Option β} {items : List α} {values : List β}
    (h : items.mapM decode = some values) {b : β} (hb : b ∈ values) :
    ∃ a ∈ items, decode a = some b := by
  induction items generalizing values with
  | nil =>
    cases h
    cases hb
  | cons a rest ih =>
    rw [List.mapM_cons] at h
    simp only [Option.bind_eq_bind, Option.bind_eq_some_iff, Option.pure_def, Option.some.injEq] at h
    obtain ⟨first, hfirst, others, hothers, rfl⟩ := h
    rcases List.mem_cons.1 hb with rfl | hb
    · exact ⟨a, List.mem_cons_self, hfirst⟩
    · obtain ⟨c, hc, hdecode⟩ := ih hothers hb
      exact ⟨c, List.mem_cons_of_mem _ hc, hdecode⟩

theorem canonical_of_listOf? {limit : Nat} {j : Option Json} {motes : List Mote}
    (h : defaulted? [] (listOf? (Mote.ofJsonWithin? limit)) j = some motes) :
    ∀ m ∈ motes, m.data.Canonical := by
  intro m hm
  cases j with
  | none =>
    cases h
    cases hm
  | some j =>
    cases j with
    | arr items =>
      have hall : items.mapM (Mote.ofJsonWithin? limit) = some motes := h
      obtain ⟨item, _, hitem⟩ := mem_of_mapM hall hm
      exact Mote.canonical_of_ofJsonWithin? hitem
    | _ => cases h

theorem exists_of_ofJson? {path : String} {j : Json} {s : Store} (h : ofJson? path j = some s) :
    ∃ (schemas : List Schema) (motes : List Mote), (∀ m ∈ motes, m.data.Canonical) ∧
      s = motes.foldl insertMote (schemas.foldl insertSchema { backing := some path }) := by
  unfold ofJson? at h
  simp only [Option.bind_eq_bind, Option.bind_eq_some_iff] at h
  obtain ⟨fields, _, h⟩ := h
  split at h
  · simp only [Option.bind_eq_some_iff, Option.pure_def, Option.some.injEq] at h
    obtain ⟨schemas, _, motes, hmotes, rfl⟩ := h
    exact ⟨schemas, motes, canonical_of_listOf? hmotes, rfl⟩
  · cases h

/-- An opened store is made by inserting what its file lists, which is nothing where there is no
file. -/
theorem exists_of_openFile {fs : Files} {path : String} {s : Store}
    (h : openFile fs path = .ok s) :
    ∃ (schemas : List Schema) (motes : List Mote), (∀ m ∈ motes, m.data.Canonical) ∧
      s = motes.foldl insertMote (schemas.foldl insertSchema { backing := some path }) := by
  unfold openFile at h
  dsimp only at h
  split at h
  · cases h
    exact ⟨[], [], List.forall_mem_nil _, rfl⟩
  · split at h
    · cases h
    · split at h
      · cases h
      · next store hstore =>
        cases h
        obtain ⟨j, _, hj⟩ := Option.bind_eq_some_iff.1 hstore
        exact exists_of_ofJson? hj

theorem sound_openFile {fs : Files} {path : String} {s : Store} (h : openFile fs path = .ok s) :
    s.Sound := by
  obtain ⟨schemas, motes, hcanonical, rfl⟩ := exists_of_openFile h
  refine sound_foldl_insertMote ?_ hcanonical
  exact sound_foldl_insertSchema (sound_backing path) schemas

theorem Reachable.sound {s : Store} (h : s.Reachable) : s.Sound := by
  induction h with
  | empty => exact sound_empty
  | openFile h => exact sound_openFile h
  | insertSchema schema _ ih => exact sound_insertSchema ih schema
  | insertMote hm _ ih => exact sound_insertMote ih hm
  | update hv ht _ ih => exact sound_update ih hv ht
  | clear id _ ih => exact sound_clear ih id
  | flush fs _ ih => exact sound_flush ih fs

end Store
end Comfort
