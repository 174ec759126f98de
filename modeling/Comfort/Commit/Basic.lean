import Comfort.Commit.Plan
import Comfort.Store.Backing

/-!
Writing a record into its mote.

A commit replaces what the mote held: its queued changes are dropped, every field is written again
from the record, and the store is flushed.  The trace lists the steps begun, so after a failure its
last entry is the step that failed.
-/

namespace Comfort

inductive CommitError where
  | schemaNotFound (schemaId : String)
  /-- The schema does not say where the display name stands. -/
  | missingNamePointer (schemaId : String)
  | store (cause : StoreError)
  deriving DecidableEq

namespace CommitError

def message : CommitError → String
  | schemaNotFound schemaId => schemaId ++ " schema not found in working copy"
  | missingNamePointer schemaId => schemaId ++ " schema does not declare a name pointer"
  | store cause => cause.message

end CommitError

namespace Commit

structure State where
  store : Store
  files : Files
  trace : List String := []

def addTrace (s : State) (entry : String) : State :=
  { s with trace := s.trace ++ [entry] }

def runStep (moteId : String) (s : State) (step : Step) : Outcome State StoreError Unit :=
  let s := { s with trace := s.trace ++ step.trace.toList }
  match s.store.update moteId step.change with
  | .ok store => .done { s with store := store } ()
  | .error e => .failed s e

/-- Run steps one after the other, up to the first one that fails. -/
def runSteps (moteId : String) (s : State) : List Step → Outcome State StoreError Unit
  | [] => .done s ()
  | step :: rest => (runStep moteId s step).andThen fun s _ => runSteps moteId s rest

def writeQuestFields (r : Record) (moteId : String) (s : State) : Outcome State StoreError Unit :=
  runSteps moteId s (questSteps r moteId)

def flush (s : State) : Outcome State StoreError Unit :=
  match s.store.flush s.files with
  | .done (store, files) _ => .done { s with store := store, files := files } ()
  | .failed (store, files) e => .failed { s with store := store, files := files } e

/-- The schema must be there and declare a name pointer. -/
def checkSchema (s : State) (schemaId : String) : Outcome State CommitError Unit :=
  match s.store.schema? schemaId with
  | none => .failed s (.schemaNotFound schemaId)
  | some schema =>
    if schema.name.isNone then .failed s (.missingNamePointer schemaId) else .done s ()

/-- Commit a record into a mote. -/
def run (r : Record) (moteId schemaId : String) (store : Store) (files : Files) :
    Outcome State CommitError Unit :=
  let s : State := { store := store, files := files }
  let s := addTrace s ("clearing pending changes for " ++ moteId)
  let s := { s with store := s.store.clear moteId }
  let s := addTrace s ("checking " ++ schemaId ++ " schema")
  (checkSchema s schemaId).andThen fun s _ =>
    ((runSteps moteId s (scalarSteps r ++ questSteps r moteId)).andThen fun s _ =>
      flush (addTrace s "flushing changes")).mapError .store

end Commit
end Comfort
