import Comfort.Schema.Resolve
import Comfort.Store.Basic

/-!
The motes that may speak in a dialogue.

The quest schema names the schemas of its speakers at one place, which is looked up with a sample
that chooses the dialogue variant.
-/

namespace Comfort

structure Speaker where
  id : String
  /-- The display name, found through the schema of the mote. -/
  name : Option String
  deriving DecidableEq

namespace Speaker

/-- Where a quest schema describes the speaker of a dialogue. -/
def path : List String :=
  ["quest_start_moments", "anykey", "element", "speech", "speaker"]

def sample (questSchemaId : String) : Json :=
  .obj
    [("data", .obj
      [("quest_start_moments", .obj
        [("anykey", .obj
          [("element", .obj
            [("speech", .obj [("speaker", .str "any")]), ("style", .str "Dialogue")])])])]),
      ("schema_id", .str questSchemaId)]

def label (s : Speaker) : String :=
  s.name.getD s.id

/-- Whether two texts are equal but for the case of ASCII letters. -/
def sameIgnoringCase (a b : String) : Bool :=
  a.toList.map Char.toLower == b.toList.map Char.toLower

/-- A speaker is named by its id, or by its display name in any case. -/
def isNamed (s : Speaker) (text : String) : Bool :=
  s.id == text || s.name.any fun name => sameIgnoringCase name text

def nameOf? (store : Store) (mote : Mote) : Option String := do
  let schema ← store.schema? mote.schemaId
  let pointer ← schema.name
  let value ← pointer.lookup? mote.data
  value.string?

/-- The schemas that a quest schema allows for speakers. -/
def allowedSchemas (store : Store) (questSchemaId : String) : Except SchemaError (List String) :=
  match store.schema? questSchemaId with
  | none => .error (.notFound questSchemaId)
  | some schema =>
    match schema.resolve path (sample questSchemaId) with
    | .error e => .error e
    | .ok (.moteId (first :: rest)) => .ok (first :: rest)
    | .ok _ => .error (.notAMoteReference (pathText path))

/-- Every mote that is allowed as a speaker, in the order of the ids. -/
def allowed (store : Store) (questSchemaId : String) : Except SchemaError (List Speaker) :=
  (allowedSchemas store questSchemaId).map fun schemaIds =>
    (store.list schemaIds).map fun mote => { id := mote.id, name := nameOf? store mote }

end Speaker
end Comfort
