import Comfort.Json.Decode

/-!
Motes: documents whose data follows a schema.
-/

namespace Comfort

structure Mote where
  id : String
  schemaId : String
  data : Json

namespace Mote

open Json (record? defaulted? string?)

def toJson (m : Mote) : Json :=
  .obj [("id", .str m.id), ("schema_id", .str m.schemaId), ("data", m.data)]

def fieldNames : List String :=
  ["id", "schema_id", "data"]

/-- Read a mote whose data is nested at most `limit` levels.  Missing data is an empty object. -/
def ofJsonWithin? (limit : Nat) (j : Json) : Option Mote := do
  let [id, schemaId, data] ← record? fieldNames 2 j | none
  let id ← id >>= string?
  let schemaId ← schemaId >>= string?
  let data := data.getD (.obj [])
  if limit < data.depth then none
  return { id := id, schemaId := schemaId, data := data.canonical }

def ofJson? (j : Json) : Option Mote :=
  ofJsonWithin? j.depth j

end Mote
end Comfort
