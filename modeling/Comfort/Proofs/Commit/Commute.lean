import Comfort.Proofs.Commit.Replace
import Comfort.Proofs.Store.Saving

/-!
Commits into different motes commute.

A commit drops what is queued for its own mote and flushes what is queued for all others, so it does
write other motes.  Where nothing is queued for two motes, a commit into the one leaves the other as
it is, and then the order of two commits does not matter, neither to the store nor to its file:
`run_comm`.
-/

namespace Comfort
namespace Commit

variable {r r₁ r₂ : Record} {a b schemaId schemaId₁ schemaId₂ : String} {s t u : Store}
  {files : Files}

/-- The stored motes after two commits. -/
theorem Committed.mote?_of_committed (hs : s.Sound) (hne : a ≠ b) (hb : s.changes b = [])
    (h₁ : Committed r₁ a s t) (h₂ : Committed r₂ b t u) (id : String) :
    u.mote? id =
      if id = a then (s.mote? a).map fun m => m.changed (changes r₁ a)
      else if id = b then (s.mote? b).map fun m => m.changed (changes r₂ b)
      else s.working? id := by
  split_ifs with hida hidb
  · rw [hida, h₂.others a hne, h₁.working? hs, h₁.own]
  · have hworking : s.working? b = s.mote? b := Store.working?_of_changes_eq_nil hs.orderly hb
    rw [hidb, h₂.own, h₁.others b hne.symm, hworking]
  · rw [h₂.others id hidb, h₁.working? hs, h₁.others id hida]

theorem committed_comm {t₁ t₂ u₁ u₂ : Store} (hs : s.Sound) (hne : a ≠ b) (ha : s.changes a = [])
    (hb : s.changes b = []) (h₁ : Committed r₁ a s t₁) (h₁₂ : Committed r₂ b t₁ u₁)
    (h₂ : Committed r₂ b s t₂) (h₂₁ : Committed r₁ a t₂ u₂) : u₁ = u₂ := by
  refine store_eq ((h₁₂.schemas.trans h₁.schemas).trans (h₂₁.schemas.trans h₂.schemas).symm)
    ((h₁₂.backing.trans h₁.backing).trans (h₂₁.backing.trans h₂.backing).symm)
    (h₁₂.pending.trans h₂₁.pending.symm) fun id => ?_
  rw [h₁.mote?_of_committed hs hne hb h₁₂, h₂.mote?_of_committed hs hne.symm ha h₂₁]
  split_ifs with hida hidb
  · exact absurd (hida.symm.trans hidb) hne
  · rfl
  · rfl
  · rfl

/-! ## Runs -/

/-- A commit into one mote leaves what a commit into another one needs. -/
theorem Committed.ready_of_ne (hs : s.Sound) (hne : b ≠ a) (h : Committed r a s t)
    (hr : Ready b schemaId s) : Ready b schemaId t := by
  obtain ⟨hstored, schema, hschema, hname⟩ := hr
  refine ⟨?_, schema, ?_, hname⟩
  · rw [h.others b hne, Store.working?_of_orderly hs.orderly, Option.isSome_map]
    exact hstored
  · rw [Store.schema?, h.schemas]
    exact hschema

/-- After a commit that ran to its end, another one that has what it needs does so too.  The file it
leaves is the one it would leave without the first one having saved anything. -/
theorem exists_run_of_run {v : State} (hs : s.Sound)
    (h : run r₁ a schemaId₁ s files = .done v ()) (hr : Ready b schemaId₂ v.store) (r₂ : Record) :
    ∃ w, run r₂ b schemaId₂ v.store v.files = .done w () ∧ Committed r₂ b v.store w.store ∧
      w.store.flush files = .done (w.store, w.files) () := by
  obtain ⟨hcommitted, hflush, -⟩ := spec_of_run hs h
  obtain ⟨u, hu, hrun⟩ := run_eq_flush (hcommitted.sound hs) hr r₂
  obtain ⟨left, hfirst, hsecond⟩ :=
    Store.flush_covers hcommitted.pending hflush hu.pending hu.backing
  refine ⟨{ store := u, files := left, trace := plan r₂ b schemaId₂ }, ?_, hu, hfirst⟩
  rw [hrun, Outcome.mapError_eq_done, flush_eq_done]
  exact ⟨hsecond, rfl⟩

/-- Two commits into different motes, for neither of which anything is queued, leave the same store
and the same files in both orders, whatever is queued for other motes.  Each of them runs to its end
after the other if it does so on its own. -/
theorem run_comm (hs : s.Reachable) (hne : a ≠ b) (ha : s.changes a = []) (hb : s.changes b = [])
    {v₁ v₂ : State} (h₁ : run r₁ a schemaId₁ s files = .done v₁ ())
    (h₂ : run r₂ b schemaId₂ s files = .done v₂ ()) :
    ∃ w₁ w₂, run r₂ b schemaId₂ v₁.store v₁.files = .done w₁ () ∧
      run r₁ a schemaId₁ v₂.store v₂.files = .done w₂ () ∧
      w₁.store = w₂.store ∧ w₁.files = w₂.files := by
  have hsound := hs.sound
  have hc₁ := committed_of_run hsound h₁
  have hc₂ := committed_of_run hsound h₂
  obtain ⟨w₁, hw₁, hc₁₂, hflush₁⟩ := exists_run_of_run hsound h₁
    (hc₁.ready_of_ne hsound hne.symm (ready_of_run h₂)) r₂
  obtain ⟨w₂, hw₂, hc₂₁, hflush₂⟩ := exists_run_of_run hsound h₂
    (hc₂.ready_of_ne hsound hne (ready_of_run h₁)) r₁
  have hstore : w₁.store = w₂.store := committed_comm hsound hne ha hb hc₁ hc₁₂ hc₂ hc₂₁
  refine ⟨w₁, w₂, hw₁, hw₂, hstore, ?_⟩
  rw [hstore, hflush₂] at hflush₁
  exact (Prod.mk.inj (Outcome.done.inj hflush₁).1).2.symm

theorem run_comm_brook_glade :
    ∃ v₁ v₂ w₁ w₂,
      run { name := some "Brook" } "brook" "quest" waitingStore .empty = .done v₁ () ∧
      run { comments := ["a"] } "glade" "quest" waitingStore .empty = .done v₂ () ∧
      run { comments := ["a"] } "glade" "quest" v₁.store v₁.files = .done w₁ () ∧
      run { name := some "Brook" } "brook" "quest" v₂.store v₂.files = .done w₂ () ∧
      w₁.store = w₂.store ∧ w₁.files = w₂.files := by
  have hbrook : Ready "brook" "quest" waitingStore := ⟨rfl, questSchema, rfl, rfl⟩
  have hglade : Ready "glade" "quest" waitingStore := ⟨rfl, questSchema, rfl, rfl⟩
  obtain ⟨v₁, h₁, -⟩ := run_eq_done (r := { name := some "Brook" }) reachable_waitingStore.sound rfl
    hbrook .empty
  obtain ⟨v₂, h₂, -⟩ := run_eq_done (r := { comments := ["a"] }) reachable_waitingStore.sound rfl
    hglade .empty
  obtain ⟨w₁, w₂, hw₁, hw₂, hstore, hfiles⟩ :=
    run_comm reachable_waitingStore (by decide) rfl rfl h₁ h₂
  exact ⟨v₁, v₂, w₁, w₂, h₁, h₂, hw₁, hw₂, hstore, hfiles⟩

end Commit
end Comfort
