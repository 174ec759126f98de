import Comfort.Proofs.Commit.Effect
import Comfort.Proofs.Commit.Run

/-!
A commit replaces an earlier one.

Made twice, the edits of a record leave what they leave when they are made once.  After the edits of
another record they leave what they would leave without it, where the fields that hold a text or the
comments are objects.  The same holds of commits, as a commit settles all that is queued.
-/

namespace Comfort
namespace Commit

open Json (editBelow editAll)

theorem effect_twice (r : Record) (moteId key : String) {child : Option Json}
    (hc : ∀ c, child = some c → c.Canonical) :
    effect r moteId key (effect r moteId key child) = effect r moteId key child := by
  unfold effect
  split
  · exact Json.editBelow_twice hc
  · split
    · exact Json.editBelow_twice hc
    · split
      · exact Json.editBelow_twice hc
      · split
        · exact Json.editBelow_twice hc
        · split <;> rfl

theorem effect_effect (r₁ r₂ : Record) (moteId key : String) {child : Option Json}
    (hc : ∀ c, child = some c → c.Canonical)
    (ho : key ∈ parentKeys → ∀ c, child = some c → c.IsObject) :
    effect r₂ moteId key (effect r₁ moteId key child) = effect r₂ moteId key child := by
  unfold effect
  split
  · next hk => exact Json.editBelow_editBelow hc (ho (by simp [parentKeys, hk]))
  · split
    · next hk => exact Json.editBelow_editBelow hc (ho (by simp [parentKeys, hk]))
    · split
      · next hk => exact Json.editBelow_editBelow hc (ho (by simp [parentKeys, hk]))
      · split
        · next hk => exact Json.editBelow_editBelow hc (ho (by simp [parentKeys, hk]))
        · split <;> rfl

theorem canonical_recordEdits (r : Record) (moteId : String) {data : Json} (hd : data.Canonical) :
    (editAll (recordEdits r moteId) data).Canonical := by
  have h := laidOut_changes r moteId
  rw [← h.2]
  exact Change.canonical_editAll h.1 hd

theorem isObject_recordEdits (r : Record) (moteId : String) {data : Json} (hd : data.IsObject) :
    (editAll (recordEdits r moteId) data).IsObject :=
  Json.isObject_editAll (fun _ he => path_ne_nil r moteId he) hd

theorem recordEdits_twice_of_isObject (r : Record) (moteId : String) {data : Json}
    (hd : data.Canonical) (ho : data.IsObject) :
    editAll (recordEdits r moteId) (editAll (recordEdits r moteId) data)
      = editAll (recordEdits r moteId) data := by
  have hcan := canonical_recordEdits r moteId hd
  have hobj := isObject_recordEdits r moteId ho
  refine Json.eq_of_field?_eq (canonical_recordEdits r moteId hcan) hcan
    (isObject_recordEdits r moteId hobj) hobj fun key => ?_
  rw [field?_recordEdits, field?_recordEdits]
  exact effect_twice r moteId key fun c hc => hd.field? hc

/-- The edits of a record leave nothing for themselves to do. -/
theorem recordEdits_twice (r : Record) (moteId : String) {data : Json} (hd : data.Canonical) :
    editAll (recordEdits r moteId) (editAll (recordEdits r moteId) data)
      = editAll (recordEdits r moteId) data := by
  by_cases ho : data.IsObject
  · exact recordEdits_twice_of_isObject r moteId hd ho
  · have hroot := Json.editAll_of_not_isObject (fun _ he => path_ne_nil r moteId he) ho
    by_cases hw : (recordEdits r moteId).any (fun e => e.2.isSome)
    · rw [if_pos hw] at hroot
      rw [hroot]
      exact recordEdits_twice_of_isObject r moteId Json.canonical_emptyObject ⟨[], rfl⟩
    · rw [if_neg hw] at hroot
      rw [hroot, hroot]

/-- The edits of a record undo those of an earlier one. -/
theorem recordEdits_recordEdits (r₁ r₂ : Record) (moteId : String) {data : Json}
    (hd : data.Canonical) (ho : data.IsObject)
    (hp : ∀ key ∈ parentKeys, ∀ c, data.field? key = some c → c.IsObject) :
    editAll (recordEdits r₂ moteId) (editAll (recordEdits r₁ moteId) data)
      = editAll (recordEdits r₂ moteId) data := by
  have hcan := canonical_recordEdits r₁ moteId hd
  have hobj := isObject_recordEdits r₁ moteId ho
  refine Json.eq_of_field?_eq (canonical_recordEdits r₂ moteId hcan)
    (canonical_recordEdits r₂ moteId hd) (isObject_recordEdits r₂ moteId hobj)
    (isObject_recordEdits r₂ moteId ho) fun key => ?_
  rw [field?_recordEdits, field?_recordEdits, field?_recordEdits]
  exact effect_effect r₁ r₂ moteId key (fun c hc => hd.field? hc) fun hk => hp key hk

/-! ## Stores -/

theorem store_eq {s t : Store} (hschemas : s.schemas = t.schemas) (hbacking : s.backing = t.backing)
    (hpending : s.pending = t.pending) (hmotes : ∀ id, s.mote? id = t.mote? id) : s = t := by
  have hm : s.motes = t.motes := Table.eq_of_find?_eq hmotes
  cases s
  cases t
  cases hschemas
  cases hbacking
  cases hpending
  cases hm
  rfl

/-- Nothing is queued after a commit, so the working copies are the stored motes. -/
theorem Committed.working? {r : Record} {moteId : String} {s t : Store} (hs : s.Sound)
    (h : Committed r moteId s t) (id : String) : t.working? id = t.mote? id := by
  have hnone : t.changes id = [] := by
    rw [Store.changes, h.pending]
    rfl
  exact Store.working?_of_changes_eq_nil (h.sound hs).orderly hnone

theorem Committed.ready {r : Record} {moteId schemaId : String} {s t : Store}
    (h : Committed r moteId s t) (hr : Ready moteId schemaId s) : Ready moteId schemaId t := by
  obtain ⟨hstored, schema, hschema, hname⟩ := hr
  refine ⟨?_, schema, ?_, hname⟩
  · rw [h.own, Option.isSome_map]
    exact hstored
  · rw [Store.schema?, h.schemas]
    exact hschema

theorem changed_eq (m : Mote) (r : Record) (moteId : String) :
    m.changed (changes r moteId) = { m with data := editAll (recordEdits r moteId) m.data } := by
  rw [Mote.changed, (laidOut_changes r moteId).2]

theorem committed_twice {r : Record} {moteId : String} {s t u : Store} (hs : s.Sound)
    (ht : Committed r moteId s t) (hu : Committed r moteId t u) : u = t := by
  refine store_eq hu.schemas hu.backing (hu.pending.trans ht.pending.symm) fun id => ?_
  by_cases hid : id = moteId
  · subst hid
    rw [hu.own, ht.own]
    cases hm : s.mote? id with
    | none => rfl
    | some m =>
      have hd : m.data.Canonical := hs.canonical id m hm
      show some ((m.changed (changes r id)).changed (changes r id)) = some (m.changed (changes r id))
      rw [changed_eq, changed_eq, recordEdits_twice r id hd]
  · rw [hu.others id hid, ht.working? hs]

theorem committed_committed {r₁ r₂ : Record} {moteId : String} {s t₁ t₂ u : Store} (hs : s.Sound)
    (hd : ∀ m, s.mote? moteId = some m → m.data.IsObject ∧
      ∀ key ∈ parentKeys, ∀ c, m.data.field? key = some c → c.IsObject)
    (h₁ : Committed r₁ moteId s t₁) (h₂ : Committed r₂ moteId s t₂)
    (hu : Committed r₂ moteId t₁ u) : u = t₂ := by
  refine store_eq ((hu.schemas.trans h₁.schemas).trans h₂.schemas.symm)
    ((hu.backing.trans h₁.backing).trans h₂.backing.symm) (hu.pending.trans h₂.pending.symm)
    fun id => ?_
  by_cases hid : id = moteId
  · subst hid
    rw [hu.own, h₁.own, h₂.own]
    cases hm : s.mote? id with
    | none => rfl
    | some m =>
      obtain ⟨ho, hp⟩ := hd m hm
      have hcan : m.data.Canonical := hs.canonical id m hm
      show some ((m.changed (changes r₁ id)).changed (changes r₂ id))
        = some (m.changed (changes r₂ id))
      rw [changed_eq, changed_eq, changed_eq, recordEdits_recordEdits r₁ r₂ id hcan ho hp]
  · rw [hu.others id hid, h₁.working? hs, h₁.others id hid, h₂.others id hid]

/-- A commit into a store without a file is a replacement and no patch.  The same commit once more
changes nothing, and after a commit of another record a commit leaves the store that it would leave
without it, where the data of the mote and the fields that a commit edits inside are objects. -/
theorem run_replaces {s : Store} (hs : s.Reachable) (hb : s.backing = none) (moteId : String) :
    (∀ r schemaId files t, run r moteId schemaId s files = .done t () →
      ∀ files', ∃ u, run r moteId schemaId t.store files' = .done u () ∧ u.store = t.store) ∧
    ∀ r₁ r₂ schemaId₁ schemaId₂ files t₁ t₂,
      (∀ m, s.mote? moteId = some m → m.data.IsObject ∧
        ∀ key ∈ parentKeys, ∀ c, m.data.field? key = some c → c.IsObject) →
      run r₁ moteId schemaId₁ s files = .done t₁ () →
      run r₂ moteId schemaId₂ s files = .done t₂ () →
      ∀ files', ∃ u, run r₂ moteId schemaId₂ t₁.store files' = .done u () ∧ u.store = t₂.store := by
  have hsound := hs.sound
  constructor
  · intro r schemaId files t ht files'
    have hcommitted := committed_of_run hsound ht
    have hbt : t.store.backing = none := hcommitted.backing.trans hb
    obtain ⟨u, hu, _, hagain⟩ := run_eq_done (r := r) (hcommitted.sound hsound) hbt
      (hcommitted.ready (ready_of_run ht)) files'
    exact ⟨u, hu, committed_twice hsound hcommitted hagain⟩
  · intro r₁ r₂ schemaId₁ schemaId₂ files t₁ t₂ hd h₁ h₂ files'
    have hc₁ := committed_of_run hsound h₁
    have hc₂ := committed_of_run hsound h₂
    have hbt : t₁.store.backing = none := hc₁.backing.trans hb
    obtain ⟨u, hu, _, hagain⟩ := run_eq_done (r := r₂) (hc₁.sound hsound) hbt
      (hc₁.ready (ready_of_run h₂)) files'
    exact ⟨u, hu, committed_committed hsound hd hc₁ hc₂ hagain⟩

theorem run_replaces_grove :
    ∃ t₁ t₂ u v,
      run { name := some "Grove" } "grove" "quest" questStore .empty = .done t₁ () ∧
      run { comments := ["a"] } "grove" "quest" questStore .empty = .done t₂ () ∧
      run { name := some "Grove" } "grove" "quest" t₁.store .empty = .done u () ∧
      run { comments := ["a"] } "grove" "quest" t₁.store .empty = .done v () ∧
      u.store = t₁.store ∧ v.store = t₂.store := by
  obtain ⟨t₁, h₁, -⟩ := run_eq_done (r := { name := some "Grove" }) reachable_questStore.sound rfl
    ready_questStore .empty
  obtain ⟨t₂, h₂, -⟩ := run_eq_done (r := { comments := ["a"] }) reachable_questStore.sound rfl
    ready_questStore .empty
  have hdata : ∀ m, questStore.mote? "grove" = some m → m.data.IsObject ∧
      ∀ key ∈ parentKeys, ∀ c, m.data.field? key = some c → c.IsObject := by
    intro m hm
    have hquest : questStore.mote? "grove" = some questMote := rfl
    rw [hquest] at hm
    cases hm
    refine ⟨⟨_, rfl⟩, ?_⟩
    simp [parentKeys, questMote, Json.field?, Keyed.find?, Json.IsObject]
  obtain ⟨htwice, hreplace⟩ := run_replaces reachable_questStore rfl "grove"
  obtain ⟨u, hu, hut⟩ := htwice _ _ _ _ h₁ .empty
  obtain ⟨v, hv, hvt⟩ := hreplace _ _ _ _ _ _ _ hdata h₁ h₂ .empty
  exact ⟨t₁, t₂, u, v, h₁, h₂, hu, hv, hut, hvt⟩

end Commit
end Comfort
