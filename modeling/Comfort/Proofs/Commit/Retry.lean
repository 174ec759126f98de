import Comfort.Proofs.Commit.Replace
import Comfort.Proofs.Store.Saving

/-!
A flush that failed can be made up for.

A flush takes the changes out of the queue before it saves the store, so when the save fails the
store has moved on and its file has not.  Nothing is lost by that: the working copies are the stored
motes by then, the file is as it was, and flushing once more, or committing the same record once
more, leaves the store and the file that the first attempt would have left: `flush_recovers`.
-/

namespace Comfort

open Store (Interrupted)

/-- What is left of a flush of `s` to its file, which is `t` whether or not it fails. -/
structure Store.FlushRecovers (path : String) (s t : Store) : Prop where
  settled : Settled s t
  /-- Only a step of the save can fail. -/
  fails : ∀ fs u left e, s.flush fs = .failed (u, left) e ↔
    u = t ∧ e = .io path ∧ t.SaveFails path fs left
  done : ∀ fs u saved, s.flush fs = .done (u, saved) () → u = t ∧ t.SavedAt path saved
  /-- Wherever it is flushed again, this is as good as a first flush. -/
  again : ∀ fs, t.flush fs = s.flush fs
  /-- Once the system works again, it does not matter where the first flush stopped. -/
  resumes : ∀ fs left, Interrupted path fs left → t.flush left.working = s.flush fs.working

namespace Commit

/-- What is left of a commit into `s`, which is `t` whether or not the flush at its end fails. -/
structure RunRecovers (path : String) (r : Record) (moteId schemaId : String) (s t : Store) :
    Prop where
  committed : Committed r moteId s t
  fails : ∀ fs u e, run r moteId schemaId s fs = .failed u e ↔
    u.store = t ∧ e = .store (.io path) ∧ t.SaveFails path fs u.files ∧
      u.trace = plan r moteId schemaId
  done : ∀ fs u, run r moteId schemaId s fs = .done u () →
    u.store = t ∧ t.SavedAt path u.files ∧ t.flush fs = .done (t, u.files) ()
  again : ∀ fs, run r moteId schemaId t fs = run r moteId schemaId s fs
  resumes : ∀ fs left, Interrupted path fs left →
    run r moteId schemaId t left.working = run r moteId schemaId s fs.working ∧
      t.flush left.working = t.flush fs.working

variable {s : Store} {path : String}

theorem exists_flushRecovers (hs : s.Sound) (hb : s.backing = some path) :
    ∃ t, s.FlushRecovers path t := by
  obtain ⟨t, hsettle, hsettled⟩ := Store.settle_eq_done hs.orderly
  have hpending := hsettled.pending
  have hbacking : t.backing = some path := hsettled.backing.trans hb
  have hflush : ∀ fs, s.flush fs = t.flush fs := hsettled.flush_eq hsettle
  refine ⟨t, hsettled, fun fs u left e => ?_, fun fs u saved h => ?_, fun fs => (hflush fs).symm,
    fun fs left h => ?_⟩
  · rw [hflush, Store.flush_eq_failed_iff hpending hbacking]
  · rw [hflush] at h
    obtain ⟨hu, hsave⟩ := (Store.flush_eq_done_iff hpending hbacking).1 h
    exact ⟨hu, Store.savedAt_of_saveTo hsave⟩
  · rw [hflush, h.flush hpending hbacking]

theorem exists_runRecovers (hs : s.Sound) (hb : s.backing = some path) {moteId schemaId : String}
    (hr : Ready moteId schemaId s) (r : Record) :
    ∃ t, RunRecovers path r moteId schemaId s t := by
  obtain ⟨t, ht, hrun⟩ := run_eq_flush hs hr r
  have hbacking : t.backing = some path := ht.backing.trans hb
  have hagain : ∀ fs, run r moteId schemaId t fs = run r moteId schemaId s fs := by
    intro fs
    obtain ⟨u, hu, hrun'⟩ := run_eq_flush (ht.sound hs) (ht.ready hr) r
    rw [hrun', hrun, committed_twice hs ht hu]
  refine ⟨t, ht, fun fs u e => ?_, fun fs u h => ?_, hagain, fun fs left h => ?_⟩
  · rw [hrun, Outcome.mapError_eq_failed]
    constructor
    · rintro ⟨e, h, rfl⟩
      obtain ⟨hflush, htrace⟩ := flush_eq_failed.1 h
      obtain ⟨hstore, rfl, hfails⟩ := (Store.flush_eq_failed_iff ht.pending hbacking).1 hflush
      exact ⟨hstore, rfl, hfails, htrace⟩
    · rintro ⟨hstore, rfl, hfails, htrace⟩
      exact ⟨.io path, flush_eq_failed.2
        ⟨(Store.flush_eq_failed_iff ht.pending hbacking).2 ⟨hstore, rfl, hfails⟩, htrace⟩, rfl⟩
  · rw [hrun, Outcome.mapError_eq_done, flush_eq_done] at h
    obtain ⟨hstore, hsave⟩ := (Store.flush_eq_done_iff ht.pending hbacking).1 h.1
    exact ⟨hstore, Store.savedAt_of_saveTo hsave, hstore ▸ h.1⟩
  · have hflush := h.flush ht.pending hbacking
    refine ⟨?_, hflush⟩
    rw [hagain, hrun, hrun, flush_congr hflush]

/-- A failed flush loses nothing, whichever step of the save it is that fails.  The store is left
with the working copies as its motes and nothing queued, the file is left with its text, and once
the system works again, one more flush leaves the same store and the same files as if it had been
the first.  So it is with a commit whose flush failed, when the store is flushed once more or the
commit is repeated. -/
theorem flush_recovers (hs : s.Reachable) (hb : s.backing = some path) :
    (∃ t, s.FlushRecovers path t) ∧
    (∀ r moteId schemaId, Ready moteId schemaId s →
      ∃ t, RunRecovers path r moteId schemaId s t) ∧
    (∀ (t : Store) fs left, t.SaveFails path fs left → Interrupted path fs left) ∧
    ∀ fs left, Interrupted path fs left →
      ∀ file, Path.ofString? path = some file → fs.KeepsAt file left :=
  ⟨exists_flushRecovers hs.sound hb,
    fun r _ _ hr => exists_runRecovers hs.sound hb hr r,
    fun _ _ _ h => h.interrupted, fun _ _ h _ hfile => h.keepsAt hfile⟩

/-- The quest store in a file that is in no directory yet, with a change queued. -/
def filedStore : Store :=
  let stored : Store := { backing := some "out/store.json" }
  { (stored.insertSchema questSchema).insertMote questMote with
    pending := Table.empty.insert "grove" [write namePointer (.str "New")] }

theorem reachable_filedStore : filedStore.Reachable := by
  have hopened : Store.openFile .empty "out/store.json"
      = .ok { backing := some "out/store.json" } := rfl
  have hmotes := (Store.Reachable.openFile hopened).insertSchema questSchema |>.insertMote
    canonical_questMote
  refine .update (fun v hv => ?_) (rfl : Store.update _ "grove" (write namePointer (.str "New"))
    = .ok filedStore) hmotes
  cases hv
  trivial

/-- A system on which files can be written, but not moved. -/
def unmovable : Files :=
  { nodes := [], refuses := fun step => step = .rename }

theorem flush_recovers_filedStore :
    ∃ t left saved, filedStore.flush unmovable = .failed (t, left) (.io "out/store.json") ∧
      (∀ id, t.mote? id = filedStore.working? id) ∧ t.pending = .empty ∧
      (∀ file, Path.ofString? "out/store.json" = some file → unmovable.KeepsAt file left) ∧
      filedStore.flush .empty = .done (t, saved) () ∧
      t.flush left.working = .done (t, saved) () ∧ t.SavedAt "out/store.json" saved ∧
      ∃ u, RunRecovers "out/store.json" { name := some "Grove" } "grove" "quest" filedStore u := by
  obtain ⟨⟨t, ht⟩, hruns, hinterrupted, hkeeps⟩ := flush_recovers reachable_filedStore rfl
  obtain ⟨u, left, hfailed⟩ :
      ∃ u left, filedStore.flush unmovable = .failed (u, left) (.io "out/store.json") := ⟨_, _, rfl⟩
  obtain ⟨v, saved, hdone⟩ : ∃ v saved, filedStore.flush .empty = .done (v, saved) () := ⟨_, _, rfl⟩
  obtain ⟨rfl, -, hfails⟩ := (ht.fails _ _ _ _).1 hfailed
  obtain ⟨rfl, hsaved⟩ := ht.done _ _ _ hdone
  have hleft := hinterrupted _ _ _ hfails
  have hworking : unmovable.working = .empty := rfl
  have hresumes := ht.resumes _ _ hleft
  rw [hworking, hdone] at hresumes
  exact ⟨v, left, saved, hfailed, ht.settled.motes, ht.settled.pending, hkeeps _ _ hleft, hdone,
    hresumes, hsaved, hruns _ _ _ ⟨rfl, questSchema, rfl, rfl⟩⟩

end Commit
end Comfort
