import Comfort.Proofs.Commit.Run

/-!
What makes a commit fail, and what it leaves when it does.

A commit into a store without a file fails for one of three reasons, and all three are found before
anything of the record is queued: `run_fails_iff`.  No pointer of a record is refused, whatever its
ids are, because ids only stand below a field that is named.
-/

namespace Comfort
namespace Commit

/-- What was queued for a mote is dropped, and everything else is as it was. -/
structure Dropped (moteId : String) (s t : Store) : Prop where
  schemas : t.schemas = s.schemas
  motes : t.motes = s.motes
  backing : t.backing = s.backing
  own : t.pending.find? moteId = none
  others : ∀ id, id ≠ moteId → t.pending.find? id = s.pending.find? id

theorem dropped_clear (s : Store) (moteId : String) : Dropped moteId s (s.clear moteId) := by
  have hfind : ∀ id, (s.clear moteId).pending.find? id
      = if moteId = id then none else s.pending.find? id := Table.find?_erase s.pending moteId
  refine ⟨rfl, rfl, rfl, ?_, fun id hid => ?_⟩
  · rw [hfind, if_pos rfl]
  · rw [hfind, if_neg fun h => hid h.symm]

/-- Without a file, nothing but a refusal makes a commit fail. -/
theorem run_eq_failed_iff {s : Store} {moteId schemaId : String} (hs : s.Sound)
    (hb : s.backing = none) (r : Record) (files : Files) (e : CommitError) :
    (∃ t, run r moteId schemaId s files = .failed t e) ↔ refusal? s moteId schemaId = some e := by
  constructor
  · rintro ⟨t, ht⟩
    cases hrefusal : refusal? s moteId schemaId with
    | none =>
      obtain ⟨u, hu, -⟩ := run_eq_done (r := r) hs hb (ready_iff.2 hrefusal) files
      rw [hu] at ht
      cases ht
    | some e' =>
      rw [run_eq_failed hrefusal] at ht
      cases ht
      rfl
  · exact fun h => ⟨_, run_eq_failed h r files⟩

/-- A commit into a store without a file fails exactly when the schema is not there, has no name
pointer, or the mote is not stored, in this order.  It never fails because of a pointer.  When it
fails, nothing of the record has been queued, what had been queued for the mote is dropped, and all
else is as it was.  The trace is then that of a full commit up to the refused step. -/
theorem run_fails_iff {s : Store} (hs : s.Reachable) (hb : s.backing = none) (r : Record)
    (moteId schemaId : String) (files : Files) :
    (∀ e, (∃ t, run r moteId schemaId s files = .failed t e) ↔
      refusal? s moteId schemaId = some e) ∧
    (∀ t p, run r moteId schemaId s files ≠ .failed t (.store (.invalidPointer p))) ∧
    (∀ t e, run r moteId schemaId s files = .failed t e → Dropped moteId s t.store ∧
      t.files = files ∧ t.trace = (plan r moteId schemaId).take (stepsBegun e)) ∧
    ∀ t, run r moteId schemaId s files = .done t () → t.trace = plan r moteId schemaId := by
  have hiff : ∀ e, (∃ t, run r moteId schemaId s files = .failed t e) ↔
      refusal? s moteId schemaId = some e := run_eq_failed_iff hs.sound hb r files
  refine ⟨hiff, fun t p ht => ?_, fun t e ht => ?_, fun t ht => (spec_of_run hs.sound ht).2.2⟩
  · have hrefusal := (hiff (.store (.invalidPointer p))).1 ⟨t, ht⟩
    rcases refusal?_eq_some.1 hrefusal with ⟨-, h⟩ | ⟨_, -, -, h⟩ | ⟨-, -, h⟩ <;> cases h
  · have hrefusal := (hiff e).1 ⟨t, ht⟩
    rw [run_eq_failed hrefusal] at ht
    cases ht
    exact ⟨dropped_clear s moteId, rfl, rfl⟩

/-- A record with an empty id and one with slashes. -/
def slashRecord : Record :=
  { stages :=
      [{ id := some ""
         name := "Dawn"
         elements :=
          [{ style := .text
             id := some "/a//b/"
             speaker := none
             speakerUnknown := false
             text := "Mist." }] }] }

/-- Such a record is only refused for a mote that is not stored.  The change that waits for another
mote goes on waiting. -/
theorem run_fails_nobody :
    (∀ t e, run slashRecord "glade" "quest" waitingStore .empty ≠ .failed t e) ∧
    ∃ t, run slashRecord "nobody" "quest" waitingStore .empty
        = .failed t (.store (.unknownMote "nobody")) ∧
      t.store.changes "grove" = waitingStore.changes "grove" ∧
      t.trace = ["clearing pending changes for nobody", "checking quest schema",
        "writing data/name/text"] := by
  obtain ⟨hglade, -⟩ :=
    run_fails_iff reachable_waitingStore rfl slashRecord "glade" "quest" .empty
  obtain ⟨hnobody, -, hfailed, -⟩ :=
    run_fails_iff reachable_waitingStore rfl slashRecord "nobody" "quest" .empty
  refine ⟨fun t e ht => ?_, ?_⟩
  · have hrefusal := (hglade e).1 ⟨t, ht⟩
    have hnone : refusal? waitingStore "glade" "quest" = none := rfl
    rw [hnone] at hrefusal
    cases hrefusal
  · obtain ⟨t, ht⟩ := (hnobody (.store (.unknownMote "nobody"))).2 rfl
    obtain ⟨hdropped, -, htrace⟩ := hfailed t _ ht
    refine ⟨t, ht, ?_, htrace⟩
    rw [Store.changes, hdropped.others "grove" (by decide)]
    rfl

end Commit
end Comfort
