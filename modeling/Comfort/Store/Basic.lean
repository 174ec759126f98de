import Comfort.Mote.Basic
import Comfort.Mote.Pointer
import Comfort.Outcome
import Comfort.Schema.Node
import Comfort.Table

/-!
A store of schemas and motes.

Changes are queued for each mote in the order in which they are made.  The working copy of a mote is
its stored data with the queued changes applied, and `settle` makes the working copies the stored
ones.
-/

namespace Comfort

/-- A queued write, or a delete where there is no value. -/
structure Change where
  pointer : Pointer
  value : Option Json

inductive StoreError where
  | unknownMote (id : String)
  | invalidPointer (pointer : Pointer)
  /-- A file could not be read or written. -/
  | io (path : String)
  | json (path : String)
  deriving DecidableEq

namespace StoreError

def message : StoreError → String
  | unknownMote id => "Mote not found: " ++ id
  | invalidPointer pointer => "Pointer must start with 'data/': " ++ pointer.text
  | io path => "IO error on " ++ path
  | json path => "Invalid store file " ++ path

end StoreError

namespace Change

/-- Apply changes one after the other, up to the first one that fails. -/
def applyAll : List Change → Json → Outcome Json InvalidPointer Unit
  | [], data => .done data ()
  | change :: rest, data =>
    match change.pointer.apply data change.value with
    | .ok data => applyAll rest data
    | .error e => .failed data e

end Change

structure Store where
  schemas : Table Schema := .empty
  motes : Table Mote := .empty
  pending : Table (List Change) := .empty
  /-- The file that the store is saved to, if it has one. -/
  backing : Option String := none

namespace Store

def insertSchema (s : Store) (schema : Schema) : Store :=
  { s with schemas := s.schemas.insert schema.id schema }

def insertMote (s : Store) (mote : Mote) : Store :=
  { s with motes := s.motes.insert mote.id mote }

def schema? (s : Store) (id : String) : Option Schema :=
  s.schemas.find? id

/-- The stored form of a mote, without the queued changes. -/
def mote? (s : Store) (id : String) : Option Mote :=
  s.motes.find? id

def changes (s : Store) (id : String) : List Change :=
  (s.pending.find? id).getD []

def working? (s : Store) (id : String) : Option Mote := do
  let mote ← s.mote? id
  match Change.applyAll (s.changes id) mote.data with
  | .done data _ => some { mote with data := data }
  | .failed _ _ => none

/-- The working copies of the motes that have one of the schemas, in the order of their ids. -/
def list (s : Store) (schemaIds : List String) : List Mote :=
  (s.motes.values.filter fun mote => schemaIds.contains mote.schemaId).filterMap
    fun mote => s.working? mote.id

def clear (s : Store) (id : String) : Store :=
  { s with pending := s.pending.erase id }

/-- Queue a change of a stored mote. -/
def update (s : Store) (id : String) (change : Change) : Except StoreError Store :=
  if !s.motes.contains id then .error (.unknownMote id)
  else if change.pointer.fieldPath?.isNone then .error (.invalidPointer change.pointer)
  else .ok { s with pending := s.pending.insert id (s.changes id ++ [change]) }

def settleEntries (s : Store) : List (String × List Change) → Outcome Store StoreError Unit
  | [] => .done s ()
  | (id, changes) :: rest =>
    match s.mote? id with
    | none => .failed s (.unknownMote id)
    | some mote =>
      match Change.applyAll changes mote.data with
      | .done data _ =>
        settleEntries { s with motes := s.motes.insert id { mote with data := data } } rest
      | .failed data e =>
        .failed { s with motes := s.motes.insert id { mote with data := data } }
          (.invalidPointer e.pointer)

/-- Make the working copies the stored ones. -/
def settle (s : Store) : Outcome Store StoreError Unit :=
  settleEntries { s with pending := .empty } s.pending.entries

end Store
end Comfort
