import Comfort.Proofs.Files.Beside
import Comfort.Proofs.Files.Created
import Comfort.Proofs.Store.Reachable

/-!
Saving again.

What a save leaves behind does not depend on what an earlier one left.  This holds after a save that
succeeded, which is covered whole by the next one (`saveTo_covers`), and after one that stopped at
any step (`Interrupted.saveTo`): the directories that are there already need not be created again,
and what stands beside the file is overwritten before it is moved.
-/

namespace Comfort
namespace Store

variable {s t : Store} {fs gs : Files} {path : String} {file : Path}

/-! ## Saves that succeed -/

theorem saveTo_eq (hfile : Path.ofString? path = some file) (s : Store) (fs : Files) :
    s.saveTo fs path =
      (((fs.createDirectories file.parentParts).andThen fun fs _ =>
        fs.write (temporary file) s.fileText.toUTF8).andThen fun fs _ =>
          fs.rename (temporary file) file).mapError fun _ => .io path := by
  rw [saveTo, hfile]

theorem saveTo_eq_done (hfile : Path.ofString? path = some file) :
    s.saveTo fs path = .done gs () ↔ ∃ created,
      fs.createDirectories file.parentParts = .done created () ∧
      (created.write (temporary file) s.fileText.toUTF8).andThen
        (fun fs _ => fs.rename (temporary file) file) = .done gs () := by
  rw [saveTo_eq hfile, Outcome.mapError_eq_done]
  constructor
  · intro h
    obtain ⟨written, _, hwritten, hrename⟩ := Outcome.andThen_eq_done.1 h
    obtain ⟨created, _, hcreate, hwrite⟩ := Outcome.andThen_eq_done.1 hwritten
    exact ⟨created, hcreate, Outcome.andThen_eq_done.2 ⟨written, (), hwrite, hrename⟩⟩
  · rintro ⟨created, hcreate, hmove⟩
    rw [hcreate, Outcome.andThen_done]
    exact hmove

theorem exists_of_saveTo (h : s.saveTo fs path = .done gs ()) :
    ∃ file, Path.ofString? path = some file := by
  cases hfile : Path.ofString? path with
  | some file => exact ⟨file, rfl⟩
  | none =>
    rw [saveTo, hfile] at h
    cases h

theorem moved_of_saveTo (h : s.saveTo fs path = .done gs ()) : ∃ file,
    Path.ofString? path = some file ∧ gs.Moved (temporary file) file s.fileText.toUTF8 := by
  obtain ⟨file, hfile⟩ := exists_of_saveTo h
  obtain ⟨created, hcreate, hmove⟩ := (saveTo_eq_done hfile).1 h
  exact ⟨file, hfile, Files.moved_of_done hcreate hmove⟩

/-- A store that has just been saved can be saved again, and no file changes. -/
theorem saveTo_of_moved (hfile : Path.ofString? path = some file)
    (h : fs.Moved (temporary file) file s.fileText.toUTF8) : s.saveTo fs path = .done fs () := by
  obtain ⟨hcreate, hmove⟩ := h.again
  exact (saveTo_eq_done hfile).2 ⟨fs, hcreate, hmove⟩

/-- Where one store could be saved, every store can be, before and after, and what is left is the
same. -/
theorem saveTo_covers (h : s.saveTo fs path = .done gs ()) (t : Store) :
    ∃ hs, t.saveTo fs path = .done hs () ∧ t.saveTo gs path = .done hs () := by
  obtain ⟨file, hfile, hmoved⟩ := moved_of_saveTo h
  obtain ⟨created, hcreate, hmove⟩ := (saveTo_eq_done hfile).1 h
  obtain ⟨hs, hfirst, hsecond⟩ := Files.write_rename_covers hmove t.fileText.toUTF8
  exact ⟨hs, (saveTo_eq_done hfile).2 ⟨created, hcreate, hfirst⟩,
    (saveTo_eq_done hfile).2 ⟨gs, hmoved.again.1, hsecond⟩⟩

/-! ## The file of a store -/

theorem fromUTF8?_toUTF8 (text : String) : String.fromUTF8? text.toUTF8 = some text := by
  have hvalid : text.toUTF8.IsValidUTF8 := text.isValidUTF8
  rw [String.fromUTF8?, dif_pos hvalid]
  rfl

theorem readText?_of_moved {source : Path} {text : String}
    (h : fs.Moved source file text.toUTF8) : fs.readText? file = some text := by
  rw [Files.readText?, h.read?, Option.bind_some, fromUTF8?_toUTF8]

/-- The file at a path holds the store. -/
def SavedAt (t : Store) (path : String) (fs : Files) : Prop :=
  (Path.ofString? path).bind fs.readText? = some t.fileText

theorem savedAt_of_saveTo (h : s.saveTo fs path = .done gs ()) : s.SavedAt path gs := by
  obtain ⟨file, hfile, hmoved⟩ := moved_of_saveTo h
  rw [SavedAt, hfile, Option.bind_some, readText?_of_moved hmoved]

/-! ## Saves that fail -/

/-- The step at which saving a store fails, and the files that are left. -/
inductive SaveFails (s : Store) (path : String) (fs : Files) : Files → Prop where
  /-- The path leads nowhere. -/
  | nowhere (hfile : Path.ofString? path = none) : SaveFails s path fs fs
  | createDirectories {file : Path} {left : Files} {e : FileStep}
      (hfile : Path.ofString? path = some file)
      (hcreate : fs.createDirectories file.parentParts = .failed left e) : SaveFails s path fs left
  | write {file : Path} {created left : Files} {e : FileStep}
      (hfile : Path.ofString? path = some file)
      (hcreate : fs.createDirectories file.parentParts = .done created ())
      (hwrite : created.write (temporary file) s.fileText.toUTF8 = .failed left e) :
      SaveFails s path fs left
  | rename {file : Path} {created written left : Files} {e : FileStep}
      (hfile : Path.ofString? path = some file)
      (hcreate : fs.createDirectories file.parentParts = .done created ())
      (hwrite : created.write (temporary file) s.fileText.toUTF8 = .done written ())
      (hrename : written.rename (temporary file) file = .failed left e) : SaveFails s path fs left

/-- Whichever step fails, the save does, with the error of the path. -/
theorem saveTo_eq_failed {e : StoreError} :
    s.saveTo fs path = .failed gs e ↔ e = .io path ∧ SaveFails s path fs gs := by
  constructor
  · intro h
    cases hfile : Path.ofString? path with
    | none =>
      rw [saveTo, hfile] at h
      cases h
      exact ⟨rfl, .nowhere hfile⟩
    | some file =>
      rw [saveTo_eq hfile] at h
      obtain ⟨_, hsteps, rfl⟩ := Outcome.mapError_eq_failed.1 h
      refine ⟨rfl, ?_⟩
      rcases Outcome.andThen_eq_failed.1 hsteps with hfirst | ⟨written, _, hwritten, hrename⟩
      · rcases Outcome.andThen_eq_failed.1 hfirst with hcreate | ⟨created, _, hcreate, hwrite⟩
        · exact .createDirectories hfile hcreate
        · exact .write hfile hcreate hwrite
      · obtain ⟨created, _, hcreate, hwrite⟩ := Outcome.andThen_eq_done.1 hwritten
        exact .rename hfile hcreate hwrite hrename
  · rintro ⟨rfl, h⟩
    cases h with
    | nowhere hfile => rw [saveTo, hfile]
    | createDirectories hfile hcreate =>
      rw [saveTo_eq hfile, hcreate]
      rfl
    | write hfile hcreate hwrite =>
      rw [saveTo_eq hfile, hcreate, Outcome.andThen_done, hwrite]
      rfl
    | rename hfile hcreate hwrite hrename =>
      rw [saveTo_eq hfile, hcreate, Outcome.andThen_done, hwrite, Outcome.andThen_done, hrename]
      rfl

/-- What a save may leave that is interrupted before the file is replaced: some directories, and
once they are all there, anything in the place beside the file. -/
inductive Interrupted (path : String) (fs : Files) : Files → Prop where
  | nowhere (hfile : Path.ofString? path = none) : Interrupted path fs fs
  | created {file : Path} (hfile : Path.ofString? path = some file) :
      Interrupted path fs (fs.createDirectories file.parentParts).state
  | written {file : Path} {created : Files} {place : List String}
      (hfile : Path.ofString? path = some file)
      (hcreate : fs.createDirectories file.parentParts = .done created ())
      (hplace : created.filePlace? (temporary file) = some place) (content : ByteArray) :
      Interrupted path fs (created.put place (.file content))

theorem SaveFails.interrupted (h : SaveFails s path fs gs) : Interrupted path fs gs := by
  cases h with
  | nowhere hfile => exact .nowhere hfile
  | @createDirectories file left e hfile hcreate =>
    have hleft : Interrupted path fs (fs.createDirectories file.parentParts).state := .created hfile
    rw [hcreate] at hleft
    exact hleft
  | @write file created left e hfile hcreate hwrite =>
    have hleft : Interrupted path fs (fs.createDirectories file.parentParts).state := .created hfile
    rw [hcreate] at hleft
    rw [Files.write_eq_failed hwrite]
    exact hleft
  | rename hfile hcreate hwrite hrename =>
    obtain ⟨place, hplace, -, rfl⟩ := Files.write_eq_done.1 hwrite
    rw [Files.rename_eq_failed hrename]
    exact .written hfile hcreate hplace _

/-! ## Saving after a save that was interrupted -/

theorem saveTo_congr (hfile : Path.ofString? path = some file)
    (h : gs.createDirectories file.parentParts = fs.createDirectories file.parentParts)
    (s : Store) : s.saveTo gs path = s.saveTo fs path := by
  rw [saveTo_eq hfile, saveTo_eq hfile, h]

/-- What stands beside the file is overwritten. -/
theorem saveTo_put {place : List String} (hfile : Path.ofString? path = some file)
    (hpassable : Path.isPassable file.parentParts = true)
    (hplace : fs.filePlace? (temporary file) = some place) (hwrites : fs.refuses .write = false)
    (content : ByteArray) (s : Store) :
    s.saveTo (fs.put place (.file content)) path = s.saveTo fs path := by
  obtain ⟨hfound, hnone⟩ := Files.filePlace?_eq_some hplace
  have hput := Files.sameDirectories_put hnone content
  have hparent : (temporary file).parentParts = file.parentParts :=
    Path.parentParts_withExtension file _
  have hcreate : ∀ hs : Files, hs.place? (temporary file) = some place →
      hs.createDirectories file.parentParts = .done hs () := by
    intro hs h
    rw [← hparent] at hpassable ⊢
    exact Files.createDirectories_of_place? hpassable h
  rw [saveTo_eq hfile, saveTo_eq hfile, hcreate fs hfound,
    hcreate _ (by rw [hput.place?, hfound]), Outcome.andThen_done, Outcome.andThen_done,
    Files.write_put hplace hwrites]

/-- On a system that works again, a store is saved as if nothing had been interrupted. -/
theorem Interrupted.saveTo (h : Interrupted path fs gs) (s : Store) :
    s.saveTo gs.working path = s.saveTo fs.working path := by
  cases h with
  | nowhere hfile => rfl
  | created hfile => exact saveTo_congr hfile (Files.createDirectories_again fs _) s
  | @written file created place hfile hcreate hplace content =>
    have hagain := Files.createDirectories_again fs file.parentParts
    rw [hcreate] at hagain
    have hpassable := Files.isPassable_of_createDirectories hcreate
    have hworking : created.working.filePlace? (temporary file) = some place := by
      rw [(Files.sameDirectories_working created).filePlace?, hplace]
    rw [← saveTo_congr hfile hagain s]
    exact saveTo_put hfile hpassable hworking rfl content s

/-! ## The file while a save is interrupted -/

theorem temporary_ne {a b : List String} (hfile : Path.ofString? path = some file)
    (ha : fs.filePlace? (temporary file) = some a) (hb : fs.place? file = some b) : b ≠ a :=
  (Files.ne_of_withExtension (by decide) (Path.parts_of_getLast? hfile) ha hb).symm

theorem Interrupted.keepsAt (h : Interrupted path fs gs) (hfile : Path.ofString? path = some file) :
    fs.KeepsAt file gs := by
  have hcreated := Files.keepsAt_createDirectories fs file
  cases h with
  | nowhere hnone =>
    rw [hnone] at hfile
    cases hfile
  | created hfile' =>
    rw [hfile] at hfile'
    cases hfile'
    exact hcreated
  | written hfile' hcreate hplace content =>
    rw [hfile] at hfile'
    cases hfile'
    rw [hcreate] at hcreated
    exact hcreated.put (Files.filePlace?_eq_some hplace).2
      (fun _ hp => temporary_ne hfile hplace hp) content

/-! ## Flushes -/

theorem flush_eq_done_iff (hp : t.pending = .empty) (hb : t.backing = some path) {u : Store} :
    t.flush fs = .done (u, gs) () ↔ u = t ∧ t.saveTo fs path = .done gs () := by
  rw [flush_of_pending hp, hb]
  dsimp only
  cases t.saveTo fs path <;> simp [eq_comm]

theorem flush_eq_failed_iff (hp : t.pending = .empty) (hb : t.backing = some path) {u : Store}
    {e : StoreError} :
    t.flush fs = .failed (u, gs) e ↔ u = t ∧ e = .io path ∧ SaveFails t path fs gs := by
  rw [← saveTo_eq_failed, flush_of_pending hp, hb]
  dsimp only
  cases t.saveTo fs path <;> simp [eq_comm, and_assoc]

theorem flush_eq_done (hs : s.Orderly) (hb : s.backing = some path)
    (h : s.flush fs = .done (t, gs) ()) : Settled s t ∧ t.saveTo fs path = .done gs () := by
  obtain ⟨settled, hsettle, hsettled⟩ := settle_eq_done hs
  rw [hsettled.flush_eq hsettle] at h
  obtain ⟨rfl, hsave⟩ := (flush_eq_done_iff hsettled.pending (hsettled.backing.trans hb)).1 h
  exact ⟨hsettled, hsave⟩

/-- A flush that succeeded does not matter to the files that a later one leaves. -/
theorem flush_covers {u : Store} (hs : s.pending = .empty) (h : s.flush fs = .done (u, gs) ())
    (ht : t.pending = .empty) (hb : t.backing = s.backing) :
    ∃ hs, t.flush fs = .done (t, hs) () ∧ t.flush gs = .done (t, hs) () := by
  cases hpath : s.backing with
  | none =>
    rw [flush_of_pending hs, hpath] at h
    cases h
    rw [hpath] at hb
    refine ⟨fs, ?_, ?_⟩ <;> rw [flush_of_pending ht, hb]
  | some path =>
    rw [hpath] at hb
    obtain ⟨-, hsave⟩ := (flush_eq_done_iff hs hpath).1 h
    obtain ⟨left, hfirst, hsecond⟩ := saveTo_covers hsave t
    exact ⟨left, (flush_eq_done_iff ht hb).2 ⟨rfl, hfirst⟩,
      (flush_eq_done_iff ht hb).2 ⟨rfl, hsecond⟩⟩

/-- On a system that works again, a store is flushed as if nothing had been interrupted. -/
theorem Interrupted.flush (h : Interrupted path fs gs) (hp : t.pending = .empty)
    (hb : t.backing = some path) : t.flush gs.working = t.flush fs.working := by
  rw [flush_of_pending hp, flush_of_pending hp, hb]
  dsimp only
  rw [h.saveTo]

end Store
end Comfort
