import Comfort.Proofs.Commit.Run

/-!
Runs of operations on a store.

A store that is empty or freshly opened has nothing queued, and no operation, refused or not, puts
its queue out of order.  So after any run of operations the working copies are there for exactly the
stored motes, and a flush into no file makes them the stored ones without fail: `flush_afterAll`.
-/

namespace Comfort
namespace Store

/-- What can be done to a store.  A commit and a flush meet the files as they are at that time. -/
inductive Operation where
  | insertSchema (schema : Schema)
  | insertMote (mote : Mote)
  | update (id : String) (change : Change)
  | clear (id : String)
  | commit (record : Record) (moteId schemaId : String) (files : Files)
  | flush (files : Files)

/-- The store after an operation, which may have been refused or have failed. -/
def after (s : Store) : Operation → Store
  | .insertSchema schema => s.insertSchema schema
  | .insertMote mote => s.insertMote mote
  | .update id change =>
    match s.update id change with
    | .ok t => t
    | .error _ => s
  | .clear id => s.clear id
  | .commit record moteId schemaId files => (Commit.run record moteId schemaId s files).state.store
  | .flush files => (s.flush files).state.1

/-- The store after a run of operations. -/
def afterAll (s : Store) (operations : List Operation) : Store :=
  operations.foldl after s

/-- A store that nothing has been done to yet. -/
inductive Fresh : Store → Prop where
  | empty : Fresh {}
  | opened {fs : Files} {path : String} {s : Store} (h : openFile fs path = .ok s) : Fresh s

theorem Fresh.orderly {s : Store} (h : s.Fresh) : s.Orderly := by
  cases h with
  | empty => exact sound_empty.orderly
  | opened h => exact (sound_openFile h).orderly

theorem after_update_of_error {s : Store} {id : String} {change : Change} {e : StoreError}
    (h : s.update id change = .error e) : s.after (.update id change) = s := by
  show (match s.update id change with | .ok t => t | .error _ => s) = s
  rw [h]

theorem orderly_after {s : Store} (h : s.Orderly) (operation : Operation) :
    (s.after operation).Orderly := by
  cases operation with
  | insertSchema schema => exact orderly_insertSchema h schema
  | insertMote mote => exact orderly_insertMote h mote
  | update id change =>
    cases ht : s.update id change with
    | ok t =>
      have hafter : s.after (.update id change) = t := by
        show (match s.update id change with | .ok t => t | .error _ => s) = t
        rw [ht]
      rw [hafter]
      exact orderly_update h ht
    | error e =>
      rw [after_update_of_error ht]
      exact h
  | clear id => exact orderly_clear h id
  | commit record moteId schemaId files => exact Commit.orderly_run h
  | flush files => exact orderly_flush h files

theorem orderly_afterAll {s : Store} (h : s.Orderly) (operations : List Operation) :
    (s.afterAll operations).Orderly := by
  induction operations generalizing s with
  | nil => exact h
  | cons operation rest ih => exact ih (orderly_after h operation)

/-! ## What an orderly queue is good for -/

theorem Orderly.isSome_working? {s : Store} (h : s.Orderly) (id : String) :
    (s.working? id).isSome = (s.mote? id).isSome := by
  rw [working?_of_orderly h, Option.isSome_map]

theorem Settled.working? {s t : Store} (h : Settled s t) (id : String) :
    t.working? id = t.mote? id := by
  rw [working?_of_orderly h.orderly, h.changes_eq_nil]
  cases t.mote? id <;> rfl

/-- Without a file there is nothing that a flush can fail of. -/
theorem Orderly.flush {s : Store} (h : s.Orderly) (hb : s.backing = none) (files : Files) :
    ∃ t, s.flush files = .done (t, files) () ∧ Settled s t := by
  obtain ⟨t, ht, hsettled⟩ := settle_eq_done h
  have hbacking : t.backing = none := hsettled.backing.trans hb
  refine ⟨t, ?_, hsettled⟩
  unfold Store.flush
  rw [ht]
  dsimp only
  rw [hbacking]

/-- After any run of operations every queued change is one of a field of a stored mote.  So the
stored motes are those that have a working copy, and a flush into no file makes the working copies
the stored ones, leaves them as they were and leaves nothing queued.  An update that is refused
changes nothing. -/
theorem flush_afterAll {start : Store} (h : start.Fresh) (operations : List Operation) :
    let s := start.afterAll operations
    (∀ id, s.pending.contains id = true → s.motes.contains id = true) ∧
    (∀ id, ∀ c ∈ s.changes id, ∃ first rest, c.pointer.segments = Pointer.root :: first :: rest) ∧
    (∀ id, (s.working? id).isSome = (s.mote? id).isSome) ∧
    (s.backing = none → ∀ files, ∃ t, s.flush files = .done (t, files) () ∧
      t.schemas = s.schemas ∧ t.pending = .empty ∧
      (∀ id, t.mote? id = s.working? id) ∧ ∀ id, t.working? id = s.working? id) ∧
    ∀ id change e, s.update id change = .error e → s.after (.update id change) = s := by
  intro s
  have horderly : s.Orderly := orderly_afterAll h.orderly operations
  refine ⟨?_, ?_, horderly.isSome_working?, ?_, fun id change e => after_update_of_error⟩
  · intro id hpending
    obtain ⟨changes, hchanges⟩ := Option.isSome_iff_exists.1 hpending
    exact horderly.stored id changes hchanges
  · intro id c hc
    obtain ⟨path, hpath⟩ := Option.isSome_iff_exists.1 (horderly.addressed id c hc)
    obtain ⟨hsegments, hne⟩ := Pointer.segments_of_fieldPath? hpath
    obtain ⟨first, rest, rfl⟩ := List.exists_cons_of_ne_nil hne
    exact ⟨first, rest, hsegments⟩
  · intro hb files
    obtain ⟨t, ht, hsettled⟩ := horderly.flush hb files
    refine ⟨t, ht, hsettled.schemas, hsettled.pending, hsettled.motes, fun id => ?_⟩
    rw [hsettled.working?, hsettled.motes]

/-- A mote with a change queued, beside an update of a mote that is not stored and one that
addresses no field. -/
def groveOperations : List Operation :=
  [.insertMote Commit.questMote, .update "nobody" (Commit.delete Commit.stagesPointer),
    .update "grove" (Commit.write Commit.namePointer (.str "New")),
    .update "grove" (Commit.delete { text := "data//" }),
    .update "grove" (Commit.delete Commit.stagesPointer)]

theorem flush_afterAll_grove :
    ∃ t, (({} : Store).afterAll groveOperations).flush .empty = .done (t, .empty) () ∧
      t.pending = .empty ∧
      (t.mote? "grove").map Mote.data = some (.obj [("name", .obj [("text", .str "New")])]) := by
  obtain ⟨-, -, -, hflush, -⟩ := flush_afterAll .empty groveOperations
  obtain ⟨t, ht, -, hpending, hmotes, -⟩ := hflush rfl .empty
  refine ⟨t, ht, hpending, ?_⟩
  rw [hmotes]
  rfl

end Store
end Comfort
