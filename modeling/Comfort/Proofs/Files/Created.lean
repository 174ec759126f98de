import Comfort.Proofs.Files.Places

/-!
Creating directories again.

Creating the directories of a path may stop in the middle, and those that were created before are
kept.  Once the system refuses nothing any more, the missing ones can be created, and that leaves
what creating all of them would have left in the first place: `createDirectories_again`.  Neither
that nor a file that is written elsewhere shows where a path leads: `KeepsAt`.
-/

namespace Comfort
namespace Files

variable {fs : Files} {place : List String}

/-- The same files on a system that refuses nothing. -/
def working (fs : Files) : Files :=
  { fs with refuses := fun _ => false }

theorem sameDirectories_working (fs : Files) : SameDirectories fs fs.working :=
  fun _ => rfl

/-- The content of the file at a place, if one stands there. -/
def content? (fs : Files) (place : List String) : Option ByteArray :=
  match fs.node? place with
  | some (.file content) => some content
  | _ => none

theorem read?_eq_content? (fs : Files) (path : Path) :
    fs.read? path = (fs.place? path).bind fs.content? := by
  unfold read? content?
  cases fs.place? path <;> rfl

theorem content?_put_of_ne {p : List String} (hfile : fs.isDirectory place = false) (h : p ≠ place)
    (node : FileNode) : (fs.put place node).content? p = fs.content? p := by
  rw [content?, node?_put (isBase_of_not_isDirectory hfile), if_neg h, content?]

theorem isBase_of_node?_eq_none (h : fs.node? place = none) : isBase place = false := by
  have hdirectory : fs.isDirectory place = false := by rw [isDirectory, h]
  exact isBase_of_not_isDirectory hdirectory

/-! ## One part of a path -/

theorem createFrom_of_isDirectory {here : List String} {part : String}
    (h : fs.node? (next here part) = some .directory) (rest : List String) :
    fs.createFrom here (part :: rest) = fs.createFrom (next here part) rest := by
  rw [createFrom, h]

theorem createFrom_of_none {here : List String} {part : String}
    (h : fs.node? (next here part) = none) (hpart : Path.isPart part = true)
    (hrefuses : fs.refuses .createDirectory = false) (rest : List String) :
    fs.createFrom here (part :: rest)
      = (fs.put (next here part) .directory).createFrom (next here part) rest := by
  rw [createFrom, h]
  simp [hpart, hrefuses]

/-- All that can come of one part: a directory that is there, one that is created, or a stop. -/
theorem createFrom_cases (fs : Files) (here : List String) (part : String) (rest : List String) :
    fs.node? (next here part) = some .directory ∨
    (fs.node? (next here part) = none ∧ Path.isPart part = true ∧
      fs.refuses .createDirectory = false) ∨
    fs.createFrom here (part :: rest) = .failed fs .createDirectory := by
  rw [createFrom]
  cases fs.node? (next here part) with
  | some node => cases node <;> simp
  | none => cases Path.isPart part <;> cases fs.refuses .createDirectory <;> simp

/-! ## All parts of a path -/

/-- What stands somewhere is kept when directories are created. -/
theorem node?_createFrom {node : FileNode} (h : fs.node? place = some node)
    (here parts : List String) : (fs.createFrom here parts).state.node? place = some node := by
  induction parts generalizing fs here with
  | nil => exact h
  | cons part rest ih =>
    rcases createFrom_cases fs here part rest with hthere | ⟨hnone, hpart, hrefuses⟩ | hstop
    · rw [createFrom_of_isDirectory hthere]
      exact ih h _
    · rw [createFrom_of_none hnone hpart hrefuses]
      refine ih ?_ _
      rw [node?_put (isBase_of_node?_eq_none hnone), if_neg, h]
      rintro rfl
      rw [hnone] at h
      cases h
    · rw [hstop]
      exact h

/-- No file comes, goes or changes when directories are created. -/
theorem content?_createFrom (fs : Files) (here parts place : List String) :
    (fs.createFrom here parts).state.content? place = fs.content? place := by
  induction parts generalizing fs here with
  | nil => rfl
  | cons part rest ih =>
    rcases createFrom_cases fs here part rest with hthere | ⟨hnone, hpart, hrefuses⟩ | hstop
    · rw [createFrom_of_isDirectory hthere]
      exact ih fs _
    · rw [createFrom_of_none hnone hpart hrefuses, ih, content?, content?,
        node?_put (isBase_of_node?_eq_none hnone)]
      split_ifs with hplace
      · rw [hplace, hnone]
      · rfl
    · rw [hstop]
      rfl

/-- Creating goes on where it stopped. -/
theorem createFrom_again (fs : Files) (here parts : List String) :
    (fs.createFrom here parts).state.working.createFrom here parts
      = fs.working.createFrom here parts := by
  induction parts generalizing fs here with
  | nil => rfl
  | cons part rest ih =>
    rcases createFrom_cases fs here part rest with hthere | ⟨hnone, hpart, hrefuses⟩ | hstop
    · have hworking : fs.working.node? (next here part) = some .directory := hthere
      have hkept : (fs.createFrom (next here part) rest).state.working.node? (next here part)
          = some .directory := node?_createFrom hthere _ _
      rw [createFrom_of_isDirectory hthere, createFrom_of_isDirectory hkept,
        createFrom_of_isDirectory hworking]
      exact ih fs _
    · have hthere : (fs.put (next here part) .directory).node? (next here part)
          = some .directory := by
        rw [node?_put (isBase_of_node?_eq_none hnone), if_pos rfl]
      have hkept : ((fs.put (next here part) .directory).createFrom (next here part)
          rest).state.working.node? (next here part) = some .directory := node?_createFrom hthere _ _
      have hworking : fs.working.node? (next here part) = none := hnone
      rw [createFrom_of_none hnone hpart hrefuses, createFrom_of_isDirectory hkept,
        createFrom_of_none hworking hpart rfl]
      exact ih (fs.put (next here part) .directory) _
    · rw [hstop]
      rfl

theorem content?_createDirectories (fs : Files) (parts place : List String) :
    (fs.createDirectories parts).state.content? place = fs.content? place := by
  unfold createDirectories
  split
  · exact content?_createFrom fs [] parts place
  · rfl

/-- Where a path leads somewhere, no directory is created for it. -/
theorem createDirectories_state_of_place? {path : Path} (h : fs.place? path = some place) :
    (fs.createDirectories path.parentParts).state = fs := by
  by_cases hpassable : Path.isPassable path.parentParts = true
  · rw [createDirectories_of_place? hpassable h]
    rfl
  · rw [createDirectories, if_neg hpassable]
    rfl

theorem createDirectories_again (fs : Files) (parts : List String) :
    (fs.createDirectories parts).state.working.createDirectories parts
      = fs.working.createDirectories parts := by
  unfold createDirectories
  split
  · exact createFrom_again fs [] parts
  · rfl

/-! ## What stands where a path leads -/

/-- A text that stood where a path leads is there, and no file stands there that did not before. -/
structure KeepsAt (path : Path) (fs gs : Files) : Prop where
  text : ∀ text, fs.readText? path = some text → gs.readText? path = some text
  content : ∀ place, gs.place? path = some place → gs.content? place = fs.content? place

variable {gs : Files} {path : Path}

theorem place?_of_readText? {text : String} (h : fs.readText? path = some text) :
    ∃ place, fs.place? path = some place := by
  obtain ⟨_, hread, -⟩ := Option.bind_eq_some_iff.1 h
  rw [read?_eq_content?] at hread
  obtain ⟨place, hplace, -⟩ := Option.bind_eq_some_iff.1 hread
  exact ⟨place, hplace⟩

theorem keepsAt_createDirectories (fs : Files) (path : Path) :
    fs.KeepsAt path (fs.createDirectories path.parentParts).state := by
  constructor
  · intro text htext
    obtain ⟨place, hplace⟩ := place?_of_readText? htext
    rw [createDirectories_state_of_place? hplace, htext]
  · exact fun place _ => content?_createDirectories fs _ place

/-- Writing elsewhere keeps what stands where the path leads. -/
theorem KeepsAt.put (h : fs.KeepsAt path gs) (hfile : gs.isDirectory place = false)
    (hne : ∀ p, gs.place? path = some p → p ≠ place) (content : ByteArray) :
    fs.KeepsAt path (gs.put place (.file content)) := by
  have hput := sameDirectories_put hfile content
  constructor
  · intro text htext
    have hread : (gs.put place (.file content)).read? path = gs.read? path := by
      rw [read?_eq_content?, read?_eq_content?, hput.place?]
      cases hplace : gs.place? path with
      | none => rfl
      | some p => exact content?_put_of_ne hfile (hne p hplace) _
    rw [readText?, hread]
    exact h.text text htext
  · intro p hp
    rw [hput.place?] at hp
    rw [content?_put_of_ne hfile (hne p hp)]
    exact h.content p hp

end Files
end Comfort
