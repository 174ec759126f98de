import Comfort.Files.Basic
import Comfort.Json.Printer
import Comfort.Json.Reader
import Comfort.Schema.Codec
import Comfort.Store.Basic

/-!
Stores in files.

A store file lists the schemas and the motes in the order of their ids.  It is written beside the
old one and then moved into its place, so a step that fails leaves the old file as it was.
-/

namespace Comfort
namespace Store

open Json (record? listOf? defaulted?)

/-- How deep a value in a store file may be nested. -/
def nestingLimit : Nat := 127

/-- The levels above the root of a schema or the data of a mote. -/
def outerLevels : Nat := 3

/-- Fields that are not known are skipped over in a store file, in its schemas and in its motes. -/
def fileShape : Json.Shape :=
  .record
    [("schemas", .list (.ofNames Schema.fieldNames)), ("motes", .list (.ofNames Mote.fieldNames))]

def toJson (s : Store) : Json :=
  .obj
    [("schemas", .arr (s.schemas.values.map Schema.toJson)),
      ("motes", .arr (s.motes.values.map Mote.toJson))]

def fileText (s : Store) : String :=
  s.toJson.pretty

/-- A store that is saved to `path`, with the schemas and motes of a file.  Of several with one id
the last one counts. -/
def ofJson? (path : String) (j : Json) : Option Store := do
  let limit := nestingLimit - outerLevels
  let [schemas, motes] ← record? ["schemas", "motes"] 0 j | none
  let schemas ← defaulted? [] (listOf? (Schema.ofJsonWithin? limit)) schemas
  let motes ← defaulted? [] (listOf? (Mote.ofJsonWithin? limit)) motes
  return motes.foldl insertMote (schemas.foldl insertSchema { backing := some path })

/-- Open the store in a file.  Where there is no file yet, the store is empty. -/
def openFile (fs : Files) (path : String) : Except StoreError Store :=
  let file := Path.ofString? path
  if !file.any fs.exists? then .ok { backing := some path }
  else
    match file.bind fs.readText? with
    | none => .error (.io path)
    | some text =>
      match (Json.readWithin? fileShape text.toList).bind (ofJson? path) with
      | none => .error (.json path)
      | some store => .ok store

/-- The file that a store is written to before it is moved into place. -/
def temporary (path : Path) : Path :=
  path.withExtension "json.tmp"

/-- Save the store to `path`.  The files are left as the last step that succeeded made them. -/
def saveTo (s : Store) (fs : Files) (path : String) : Outcome Files StoreError Unit :=
  match Path.ofString? path with
  | none => .failed fs (.io path)
  | some file =>
    let created := fs.createDirectories file.parentParts
    let written := created.andThen fun fs _ => fs.write (temporary file) s.fileText.toUTF8
    let renamed := written.andThen fun fs _ => fs.rename (temporary file) file
    renamed.mapError fun _ => .io path

def flush (s : Store) (fs : Files) : Outcome (Store × Files) StoreError Unit :=
  match s.settle with
  | .failed s e => .failed (s, fs) e
  | .done s _ =>
    match s.backing with
    | none => .done (s, fs) ()
    | some path =>
      match s.saveTo fs path with
      | .done fs _ => .done (s, fs) ()
      | .failed fs e => .failed (s, fs) e

end Store
end Comfort
