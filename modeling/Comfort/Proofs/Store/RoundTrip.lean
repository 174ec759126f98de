import Comfort.Proofs.Store.Saving
import Comfort.Proofs.Store.Written

/-!
Stores come back from their files.

A flush of a store that has a file writes the file beside its place and moves it there.  What is then
opened is the store that was flushed, and flushing that store again changes no file: `openFile_flush`.
This holds up to the nesting limit of store files.  A flush succeeds beyond it as well, but the file
cannot be opened any more: `openFile_saved`.
-/

namespace Comfort
namespace Store

variable {s t : Store} {fs fs' : Files} {path : String} {file : Path}

/-! ## Opening -/

/-- A saved store is opened again without what is queued, unless it is nested too deep. -/
theorem openFile_saved (hs : s.Reachable) (h : s.Faithful) (hfile : Path.ofString? path = some file)
    (hmoved : fs.Moved (temporary file) file s.fileText.toUTF8) :
    openFile fs path = if s.toJson.depth ≤ nestingLimit
      then .ok { s with pending := .empty, backing := some path } else .error (.json path) := by
  have htext : Json.readWithin? fileShape s.fileText.toList = some s.toJson :=
    Json.readWithin?_pretty (wholeNumbers_toJson h) (keeps_toJson s)
  have hexists : (some file).any fs.exists? = true := hmoved.exists?
  rw [openFile, hfile, hexists, Bool.not_true, if_neg Bool.false_ne_true, Option.bind_some,
    readText?_of_moved hmoved]
  dsimp only
  rw [htext, Option.bind_some, ofJson?_toJson hs h]
  by_cases hdepth : s.toJson.depth ≤ nestingLimit
  · rw [if_pos hdepth, if_pos hdepth]
  · rw [if_neg hdepth, if_neg hdepth]

/-! ## Flushing and opening -/

/-- After a flush that succeeded, the file holds the text of the store, the store that is opened is
the one that was flushed, with the schemas and the working copies it had before and nothing queued,
and flushing it once more leaves every file as it is.  What the store holds must be written without
loss, and no deeper than a store file may be nested. -/
theorem openFile_flush (hs : s.Reachable) (hb : s.backing = some path)
    (hflush : s.flush fs = .done (t, fs') ()) (hfaithful : t.Faithful)
    (hdepth : t.toJson.depth ≤ nestingLimit) :
    openFile fs' path = .ok t ∧ t.schemas = s.schemas ∧ (∀ id, t.mote? id = s.working? id) ∧
      t.pending = .empty ∧ (Path.ofString? path).bind fs'.readText? = some t.fileText ∧
      t.flush fs' = .done (t, fs') () := by
  obtain ⟨hsettled, hsave⟩ := flush_eq_done hs.sound.orderly hb hflush
  obtain ⟨file, hfile, hmoved⟩ := moved_of_saveTo hsave
  have hbacking : t.backing = some path := hsettled.backing.trans hb
  have ht : t.Reachable := by
    have hstate : (s.flush fs).state.1 = t := by rw [hflush]; rfl
    exact hstate ▸ hs.flush fs
  have hsame : { t with pending := .empty, backing := some path } = t := by
    rw [← hsettled.pending, ← hbacking]
  refine ⟨?_, hsettled.schemas, hsettled.motes, hsettled.pending, ?_, ?_⟩
  · rw [openFile_saved ht hfaithful hfile hmoved, if_pos hdepth, hsame]
  · rw [hfile, Option.bind_some, readText?_of_moved hmoved]
  · unfold flush
    rw [hsettled.settle]
    dsimp only
    rw [hbacking]
    dsimp only
    rw [saveTo_of_moved hfile hmoved]

/-- A schema with a property of every kind, where the text may need escapes. -/
def thicketSchema : Schema :=
  { id := "thick\"et", title := some "Thick\\et\t", name := some { text := "data/name" }
    root := .object
      [("any", .oneOf [.string none, .string (some "\n"), .boolean]), ("count", .array .number)]
      (some (.moteId ["grove", "thick\"et"])) }

/-- A mote with the least and the greatest whole number, and a character of four bytes. -/
def thicketMote : Mote :=
  { id := "bramble", schemaId := "thick\"et"
    data := .obj
      [("count", .arr [.num (.whole (-9223372036854775808)),
        .num (.whole 18446744073709551615)]), ("name", .str "🌿\x01")] }

/-- The store of these two, in a file. -/
def thicket : Store :=
  (({ backing := some "store.json" } : Store).insertSchema thicketSchema).insertMote thicketMote

theorem openFile_flush_thicket : ∃ fs, thicket.flush .empty = .done (thicket, fs) () ∧
    openFile fs "store.json" = .ok thicket ∧ thicket.flush fs = .done (thicket, fs) () := by
  obtain ⟨fs, hflush⟩ : ∃ fs, thicket.flush .empty = .done (thicket, fs) () := ⟨_, rfl⟩
  have hopened : openFile .empty "store.json" = .ok { backing := some "store.json" } := rfl
  have hreachable : thicket.Reachable := by
    refine .insertMote ?_ (.insertSchema thicketSchema (.openFile hopened))
    refine ⟨?_, ⟨trivial, trivial, trivial⟩, trivial, trivial⟩
    unfold Keyed.Ascending
    decide
  have hfaithful : thicket.Faithful := by
    refine faithful_insertMote (faithful_insertSchema (faithful_backing "store.json") ?_) ?_
    · refine ⟨?_, ⟨⟨trivial, trivial, trivial, trivial⟩, trivial, trivial⟩, trivial⟩
      unfold Keyed.Ascending
      decide
    · refine ⟨⟨?_, ?_, trivial⟩, trivial, trivial⟩
      · exact ⟨by decide, by decide⟩
      · exact ⟨by decide, by decide⟩
  have h := openFile_flush hreachable rfl hflush hfaithful (by decide)
  exact ⟨fs, hflush, h.1, h.2.2.2.2.2⟩

/-- A node below `n` levels of arrays. -/
def nestedArrays (node : SchemaNode) : Nat → SchemaNode
  | 0 => node
  | n + 1 => .array (nestedArrays node n)

theorem ordered_nestedArrays {node : SchemaNode} (h : node.Ordered) (n : Nat) :
    (nestedArrays node n).Ordered := by
  induction n with
  | zero => exact h
  | succ n ih => exact ih

theorem depth_nestedArrays (node : SchemaNode) (n : Nat) :
    (nestedArrays node n).toJson.depth = node.toJson.depth + n := by
  induction n with
  | zero => rfl
  | succ n ih =>
    simp only [nestedArrays, SchemaNode.toJson, Json.depth, Json.fieldsDepth, ih]
    omega

/-- A schema that is written one level deeper than a store file may be nested. -/
def deepSchema : Schema :=
  { id := "deep", title := none, name := none, root := nestedArrays (.moteId []) 122 }

def deepStore : Store :=
  ({ backing := some "store.json" } : Store).insertSchema deepSchema

/-- Without any mote, the depth of a schema tree is enough to make the file of a flushed store one
that cannot be opened. -/
theorem openFile_flush_deepStore : deepStore.Reachable ∧ deepStore.Faithful ∧
    deepStore.motes = .empty ∧ ∃ fs, deepStore.flush .empty = .done (deepStore, fs) () ∧
      openFile fs "store.json" = .error (.json "store.json") := by
  have hopened : openFile .empty "store.json" = .ok { backing := some "store.json" } := rfl
  have hreachable : deepStore.Reachable := .insertSchema deepSchema (.openFile hopened)
  have hmoteId : (SchemaNode.moteId []).Ordered := trivial
  have hfaithful : deepStore.Faithful :=
    faithful_insertSchema (faithful_backing "store.json") (ordered_nestedArrays hmoteId 122)
  obtain ⟨fs, hflush⟩ : ∃ fs, deepStore.flush .empty = .done (deepStore, fs) () := ⟨_, rfl⟩
  obtain ⟨-, hsave⟩ := flush_eq_done hreachable.sound.orderly rfl hflush
  obtain ⟨file, hfile, hmoved⟩ := moved_of_saveTo hsave
  refine ⟨hreachable, hfaithful, rfl, fs, hflush, ?_⟩
  have hdeep : ¬ deepStore.toJson.depth ≤ nestingLimit := by
    intro h
    have hschema := (depth_toJson_le.1 h).1 deepSchema List.mem_cons_self
    rw [deepSchema, depth_nestedArrays] at hschema
    revert hschema
    decide
  rw [openFile_saved hreachable hfaithful hfile hmoved, if_neg hdeep]

end Store
end Comfort
