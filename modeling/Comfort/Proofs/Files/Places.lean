import Mathlib.Data.List.Basic
import Comfort.Files.Basic
import Comfort.Proofs.Simulation

/-!
Where paths lead after files have been written and moved.

Putting or removing a file changes no directory, so a path leads where it led before.  A path that
leads to a file needs no directory created.  So a file that has been written beside another and
moved into its place can be written and moved again.  With another content that covers what the
first one left, and with the same content it leaves everything as it is.
-/

namespace Comfort
namespace Files

variable {fs gs : Files} {place p : List String}

/-! ## What stands at a place -/

theorem find?_filter_ne (place p : List String) (nodes : List (List String × FileNode)) :
    find? p (nodes.filter fun e => e.1 != place) = if p = place then none else find? p nodes := by
  induction nodes with
  | nil => simp [find?]
  | cons e rest ih =>
    obtain ⟨q, node⟩ := e
    by_cases hq : q = place
    · subst hq
      rw [List.filter_cons_of_neg (by simp), ih, find?]
      by_cases hp : p = q
      · rw [if_pos hp, if_pos hp]
      · rw [if_neg hp, if_neg hp, if_neg (Ne.symm hp)]
    · rw [List.filter_cons_of_pos (by simpa using hq), find?, find?, ih]
      by_cases hp : q = p
      · rw [if_pos hp, if_pos hp, if_neg (hp ▸ hq)]
      · rw [if_neg hp, if_neg hp]

theorem find?_append (p : List String) (nodes more : List (List String × FileNode)) :
    find? p (nodes ++ more) = (find? p nodes).or (find? p more) := by
  induction nodes with
  | nil => rfl
  | cons e rest ih =>
    obtain ⟨q, node⟩ := e
    by_cases hq : q = p <;> simp [find?, hq, ih]

theorem isBase_of_not_isDirectory (h : fs.isDirectory place = false) : isBase place = false := by
  cases hbase : isBase place with
  | false => rfl
  | true => simp [isDirectory, node?, hbase] at h

theorem node?_remove (h : isBase place = false) (p : List String) :
    (fs.remove place).node? p = if p = place then none else fs.node? p := by
  unfold node? remove
  rw [find?_filter_ne]
  by_cases hp : p = place
  · simp [hp, h]
  · simp [hp]

theorem node?_put (h : isBase place = false) (node : FileNode) (p : List String) :
    (fs.put place node).node? p = if p = place then some node else fs.node? p := by
  unfold node? put remove
  dsimp only
  rw [find?_append, find?_filter_ne]
  by_cases hp : p = place
  · simp [hp, h, find?]
  · have hne : ¬ place = p := fun h => hp h.symm
    simp [hp, hne, find?]

theorem remove_put (fs : Files) (place : List String) (node : FileNode) :
    (fs.put place node).remove place = fs.remove place := by
  simp [put, remove, List.filter_append, List.filter_filter]

theorem put_put (fs : Files) (place : List String) (first second : FileNode) :
    (fs.put place first).put place second = fs.put place second := by
  simp [put, remove, List.filter_append, List.filter_filter]

/-- What is put somewhere after a removal is covered by what is put there after the same removal. -/
theorem put_remove_put (fs : Files) (a b : List String) (first second : FileNode) :
    (((fs.remove a).put b first).remove a).put b second = (fs.remove a).put b second := by
  by_cases hab : b = a
  · simp [put, remove, List.filter_append, List.filter_filter, hab]
  · simp only [put, remove, List.filter_append, List.filter_filter]
    grind

/-! ## Directories -/

/-- The same places are directories. -/
def SameDirectories (fs gs : Files) : Prop :=
  ∀ place, gs.isDirectory place = fs.isDirectory place

theorem SameDirectories.trans {hs : Files} (h : SameDirectories fs gs) (h' : SameDirectories gs hs) :
    SameDirectories fs hs :=
  fun place => (h' place).trans (h place)

theorem sameDirectories_put (h : fs.isDirectory place = false) (content : ByteArray) :
    SameDirectories fs (fs.put place (.file content)) := by
  intro p
  by_cases hp : p = place
  · rw [hp, h, isDirectory, node?_put (isBase_of_not_isDirectory h), if_pos rfl]
  · rw [isDirectory, node?_put (isBase_of_not_isDirectory h), if_neg hp]
    rfl

theorem sameDirectories_remove (h : fs.isDirectory place = false) :
    SameDirectories fs (fs.remove place) := by
  intro p
  by_cases hp : p = place
  · rw [hp, h, isDirectory, node?_remove (isBase_of_not_isDirectory h), if_pos rfl]
  · rw [isDirectory, node?_remove (isBase_of_not_isDirectory h), if_neg hp]
    rfl

theorem sameDirectories_move {a b : List String} (ha : fs.isDirectory a = false)
    (hb : fs.isDirectory b = false) (content : ByteArray) :
    SameDirectories fs ((fs.remove a).put b (.file content)) := by
  have hremove := sameDirectories_remove ha
  refine hremove.trans (sameDirectories_put ?_ content)
  rw [hremove, hb]

theorem SameDirectories.follow? (h : SameDirectories fs gs) (here : List String)
    (parts : List String) : gs.follow? here parts = fs.follow? here parts := by
  induction parts generalizing here with
  | nil => rfl
  | cons part rest ih => rw [Files.follow?, Files.follow?, h, ih]

theorem SameDirectories.place? (h : SameDirectories fs gs) (path : Path) :
    gs.place? path = fs.place? path := by
  unfold Files.place?
  simp only [h.follow?, h _]

theorem SameDirectories.filePlace? (h : SameDirectories fs gs) (path : Path) :
    gs.filePlace? path = fs.filePlace? path := by
  unfold Files.filePlace?
  simp only [h.place?, h _]

theorem filePlace?_eq_some {path : Path} (h : fs.filePlace? path = some place) :
    fs.place? path = some place ∧ fs.isDirectory place = false := by
  simp only [filePlace?, Option.bind_eq_bind, Option.bind_eq_some_iff] at h
  obtain ⟨q, hq, h⟩ := h
  split at h
  · next hfile =>
    cases h
    simp only [Bool.and_eq_true, Bool.not_eq_true'] at hfile
    exact ⟨hq, hfile.2⟩
  · cases h

theorem follow?_of_place? {path : Path} (h : fs.place? path = some place) :
    fs.follow? [] path.parts = some place := by
  unfold place? at h
  split at h
  · cases h
  · simp only [Option.bind_eq_bind, Option.bind_eq_some_iff] at h
    obtain ⟨q, hq, h⟩ := h
    split at h
    · cases h
    · cases h
      exact hq

/-! ## Creating directories that are there -/

theorem node?_of_isDirectory (h : fs.isDirectory place = true) :
    fs.node? place = some .directory := by
  unfold isDirectory at h
  split at h
  · assumption
  · cases h

theorem isDirectory_of_follow? {here : List String} {part : String} {rest : List String}
    (h : fs.follow? here (part :: rest) = some place) :
    fs.isDirectory here = true ∧ fs.follow? (next here part) rest = some place := by
  rw [follow?] at h
  split at h
  · next hcond => exact ⟨(Bool.and_eq_true _ _ ▸ hcond).1, h⟩
  · cases h

/-- A path can only be followed through directories, so none of them has to be created. -/
theorem createFrom_of_follow? {here parts : List String} {last : String}
    (h : fs.follow? here (parts ++ [last]) = some place) : fs.createFrom here parts = .done fs () := by
  induction parts generalizing here with
  | nil => rfl
  | cons part rest ih =>
    obtain ⟨-, hrest⟩ := isDirectory_of_follow? h
    have hthere : fs.isDirectory (next here part) = true := by
      cases rest with
      | nil => exact (isDirectory_of_follow? hrest).1
      | cons _ _ => exact (isDirectory_of_follow? hrest).1
    rw [createFrom, node?_of_isDirectory hthere]
    exact ih hrest

theorem isPassable_of_createDirectories {parts : List String}
    (h : fs.createDirectories parts = .done gs ()) : Path.isPassable parts = true := by
  unfold createDirectories at h
  split at h
  · assumption
  · cases h

theorem createDirectories_of_place? {path : Path} (hpassable : Path.isPassable path.parentParts = true)
    (h : fs.place? path = some place) : fs.createDirectories path.parentParts = .done fs () := by
  rw [createDirectories, if_pos hpassable]
  have hfollow := follow?_of_place? h
  unfold Path.parentParts
  cases hparts : path.parts.getLast? with
  | none =>
    rw [List.getLast?_eq_none_iff.1 hparts]
    rfl
  | some last =>
    rw [← List.dropLast_append_getLast? last hparts] at hfollow
    exact createFrom_of_follow? hfollow

/-! ## Writing and moving -/

theorem write_eq_done {path : Path} {content : ByteArray} :
    fs.write path content = .done gs () ↔ ∃ place, fs.filePlace? path = some place ∧
      fs.refuses .write = false ∧ gs = fs.put place (.file content) := by
  unfold write
  cases fs.filePlace? path with
  | none => simp
  | some place => cases fs.refuses .write <;> simp [eq_comm]

/-- A file that stands where another one is written is overwritten. -/
theorem write_put {path : Path} (hplace : fs.filePlace? path = some place)
    (hwrites : fs.refuses .write = false) (first second : ByteArray) :
    (fs.put place (.file first)).write path second = fs.write path second := by
  have hput := sameDirectories_put (filePlace?_eq_some hplace).2 first
  have hwritten : fs.write path second = .done (fs.put place (.file second)) () :=
    write_eq_done.2 ⟨place, hplace, hwrites, rfl⟩
  rw [hwritten, write_eq_done]
  exact ⟨place, by rw [hput.filePlace?, hplace], hwrites, (put_put fs place _ _).symm⟩

theorem rename_eq_done {source target : Path} :
    fs.rename source target = .done gs () ↔ ∃ a b content, fs.place? source = some a ∧
      fs.filePlace? target = some b ∧ fs.node? a = some (.file content) ∧
      fs.refuses .rename = false ∧ gs = (fs.remove a).put b (.file content) := by
  unfold rename
  cases fs.place? source with
  | none => simp
  | some a =>
    cases fs.filePlace? target with
    | none => simp
    | some b =>
      dsimp only
      cases hnode : fs.node? a with
      | none => simp [hnode]
      | some node =>
        cases node with
        | directory => simp [hnode]
        | file content => cases fs.refuses .rename <;> simp [hnode, eq_comm]

theorem write_eq_failed {path : Path} {content : ByteArray} {e : FileStep}
    (h : fs.write path content = .failed gs e) : gs = fs := by
  unfold write at h
  split at h
  · cases h
    rfl
  · split at h <;> cases h
    rfl

theorem rename_eq_failed {source target : Path} {e : FileStep}
    (h : fs.rename source target = .failed gs e) : gs = fs := by
  unfold rename at h
  split at h
  · split at h
    · split at h <;> cases h
      rfl
    · cases h
      rfl
  · cases h
    rfl

/-- Writing a file beside another and moving it there needs a place for each of them. -/
theorem write_rename_eq_done {source target : Path} {content : ByteArray} :
    (fs.write source content).andThen (fun fs _ => fs.rename source target) = .done gs () ↔
      ∃ a b, fs.filePlace? source = some a ∧ fs.filePlace? target = some b ∧
        fs.refuses .write = false ∧ fs.refuses .rename = false ∧
        gs = (fs.remove a).put b (.file content) := by
  constructor
  · intro h
    obtain ⟨written, _, hwrite, hrename⟩ := Outcome.andThen_eq_done.1 h
    obtain ⟨a, ha, hwrites, rfl⟩ := write_eq_done.1 hwrite
    obtain ⟨a', b, content', ha', hb, hnode, hrenames, rfl⟩ := rename_eq_done.1 hrename
    obtain ⟨hplace, hfile⟩ := filePlace?_eq_some ha
    have hput := sameDirectories_put hfile content
    rw [hput.place?, hplace] at ha'
    cases ha'
    rw [node?_put (isBase_of_not_isDirectory hfile), if_pos rfl] at hnode
    cases hnode
    rw [hput.filePlace?] at hb
    exact ⟨a, b, ha, hb, hwrites, hrenames, by rw [remove_put]⟩
  · rintro ⟨a, b, ha, hb, hwrites, hrenames, rfl⟩
    obtain ⟨hplace, hfile⟩ := filePlace?_eq_some ha
    have hput := sameDirectories_put hfile content
    refine Outcome.andThen_eq_done.2 ⟨fs.put a (.file content), (), write_eq_done.2
      ⟨a, ha, hwrites, rfl⟩, rename_eq_done.2 ⟨a, b, content, ?_, ?_, ?_, hrenames, ?_⟩⟩
    · rw [hput.place?, hplace]
    · rw [hput.filePlace?, hb]
    · rw [node?_put (isBase_of_not_isDirectory hfile), if_pos rfl]
    · rw [remove_put]

/-- What was written and moved is covered by what is written and moved next. -/
theorem write_rename_covers {source target : Path} {first : ByteArray}
    (h : (fs.write source first).andThen (fun fs _ => fs.rename source target) = .done gs ())
    (second : ByteArray) :
    ∃ hs, (fs.write source second).andThen (fun fs _ => fs.rename source target) = .done hs () ∧
      (gs.write source second).andThen (fun fs _ => fs.rename source target) = .done hs () := by
  obtain ⟨a, b, ha, hb, hwrites, hrenames, rfl⟩ := write_rename_eq_done.1 h
  have hmoved :=
    sameDirectories_move (filePlace?_eq_some ha).2 (filePlace?_eq_some hb).2 first
  refine ⟨(fs.remove a).put b (.file second),
    write_rename_eq_done.2 ⟨a, b, ha, hb, hwrites, hrenames, rfl⟩,
    write_rename_eq_done.2 ⟨a, b, ?_, ?_, hwrites, hrenames, ?_⟩⟩
  · rw [hmoved.filePlace?, ha]
  · rw [hmoved.filePlace?, hb]
  · rw [put_remove_put]

/-! ## A file moved into its place -/

/-- The files after `content` was written to `source` and moved from there to `target`. -/
structure Moved (fs : Files) (source target : Path) (content : ByteArray) : Prop where
  passable : Path.isPassable target.parentParts = true
  writes : fs.refuses .write = false
  renames : fs.refuses .rename = false
  places : ∃ (before : Files) (a b : List String), fs.filePlace? source = some a ∧
    fs.filePlace? target = some b ∧ fs = (before.remove a).put b (.file content)

variable {source target : Path} {content : ByteArray}

theorem moved_of_done {created : Files}
    (hcreate : fs.createDirectories target.parentParts = .done created ())
    (hmove : (created.write source content).andThen (fun fs _ => fs.rename source target)
      = .done gs ()) : Moved gs source target content := by
  obtain ⟨a, b, ha, hb, hwrites, hrenames, hgs⟩ := write_rename_eq_done.1 hmove
  have hmoved : SameDirectories created gs := by
    rw [hgs]
    exact sameDirectories_move (filePlace?_eq_some ha).2 (filePlace?_eq_some hb).2 content
  constructor
  · exact isPassable_of_createDirectories hcreate
  · rw [hgs]
    exact hwrites
  · rw [hgs]
    exact hrenames
  · refine ⟨created, a, b, ?_, ?_, hgs⟩
    · rw [hmoved.filePlace?, ha]
    · rw [hmoved.filePlace?, hb]

/-- The file is there with its content. -/
theorem Moved.node? (h : Moved fs source target content) :
    (fs.place? target).bind fs.node? = some (.file content) := by
  obtain ⟨before, a, b, -, hb, hfs⟩ := h.places
  obtain ⟨hplace, hfile⟩ := filePlace?_eq_some hb
  have hbase := isBase_of_not_isDirectory hfile
  rw [hplace, Option.bind_some, hfs, node?_put hbase, if_pos rfl]

theorem Moved.read? (h : Moved fs source target content) : fs.read? target = some content := by
  rw [Files.read?, h.node?]

theorem Moved.exists? (h : Moved fs source target content) : fs.exists? target = true := by
  rw [Files.exists?, h.node?]
  rfl

/-- Writing the file again and moving it again leaves everything as it is. -/
theorem Moved.again (h : Moved fs source target content) :
    fs.createDirectories target.parentParts = .done fs () ∧
      (fs.write source content).andThen (fun fs _ => fs.rename source target) = .done fs () := by
  obtain ⟨before, a, b, ha, hb, hfs⟩ := h.places
  refine ⟨createDirectories_of_place? h.passable (filePlace?_eq_some hb).1,
    write_rename_eq_done.2 ⟨a, b, ha, hb, h.writes, h.renames, ?_⟩⟩
  rw [hfs, put_remove_put]

end Files
end Comfort
