import Comfort.Json.Decode
import Comfort.Schema.Node

/-!
Schemas as JSON.

The `type` of a node stands in the same object as its fields.  A node may also be given as an array
that begins with the type.  Below the root, the type may be given by its number.
-/

namespace Comfort

open Json (record? listOf? optional? defaulted? string? strings?)

namespace SchemaNode

/-! ## Writing -/

mutual

def toJson : SchemaNode → Json
  | object properties additional =>
    .obj
      [("type", .str "object"), ("properties", .obj (propertiesToJson properties)),
        ("additional_properties", additionalToJson additional)]
  | oneOf variants => .obj [("type", .str "one_of"), ("variants", .arr (variantsToJson variants))]
  | string constant => .obj [("type", .str "string"), ("const", .ofOption .str constant)]
  | number => .obj [("type", .str "number")]
  | boolean => .obj [("type", .str "boolean")]
  | array items => .obj [("type", .str "array"), ("items", items.toJson)]
  | moteId allowed =>
    .obj
      [("type", .str "mote_id"),
        ("format_properties", .obj [("allow_schemas", .strings allowed)])]
termination_by structural node => node

def propertiesToJson : List (String × SchemaNode) → List (String × Json)
  | [] => []
  | (key, node) :: rest => (key, node.toJson) :: propertiesToJson rest
termination_by structural properties => properties

def additionalToJson : Option SchemaNode → Json
  | none => .null
  | some node => node.toJson
termination_by structural additional => additional

def variantsToJson : List SchemaNode → List Json
  | [] => []
  | node :: rest => node.toJson :: variantsToJson rest
termination_by structural variants => variants

end

/-! ## Reading -/

def typeNames : List String :=
  ["object", "one_of", "string", "number", "boolean", "array", "mote_id"]

def typeName? (byNumber : Bool) : Json → Option String
  | .str name => some name
  | .num (.whole (.ofNat n)) => if byNumber then typeNames[n]? else none
  | _ => none

/-- The type of a node, and what gives its fields. -/
def untag? (byNumber : Bool) : Json → Option (String × Json)
  | .obj fields =>
    match fields.filter fun e => e.1 == "type" with
    | [(_, type)] =>
      (typeName? byNumber type).map fun name => (name, .obj (fields.filter fun e => e.1 != "type"))
    | _ => none
  | .arr (type :: rest) => (typeName? byNumber type).map fun name => (name, .arr rest)
  | _ => none

/-- A node without fields takes no notice of fields with names, but of fields without. -/
def noFields? : Json → Option Unit
  | .obj _ => some ()
  | .arr [] => some ()
  | _ => none

def allowed? (j : Json) : Option (List String) := do
  let [allowed] ← record? ["allow_schemas"] 0 j | none
  defaulted? [] strings? allowed

/-- The declared properties, given what reads one node. -/
def properties? (child : Json → Option SchemaNode) : Json → Option (List (String × SchemaNode))
  | .obj fields =>
    (fields.mapM fun e => (child e.2).map fun node => (e.1, node)).map Keyed.ofEntries
  | _ => none

/-- Read a node whose depth is at most the fuel. -/
def ofJson? : Nat → Bool → Json → Option SchemaNode
  | 0, _, _ => none
  | fuel + 1, byNumber, j => do
    let child := ofJson? fuel true
    let (type, fields) ← untag? byNumber j
    match type with
    | "object" =>
      let [properties, additional] ←
        record? ["properties", "additional_properties"] 0 fields | none
      let properties ← defaulted? [] (properties? child) properties
      let additional ← optional? child additional
      return object properties additional
    | "one_of" =>
      let [variants] ← record? ["variants"] 1 fields | none
      return oneOf (← variants >>= listOf? child)
    | "string" =>
      let [constant] ← record? ["const"] 0 fields | none
      return string (← optional? string? constant)
    | "number" => (noFields? fields).map fun _ => number
    | "boolean" => (noFields? fields).map fun _ => boolean
    | "array" =>
      let [items] ← record? ["items"] 1 fields | none
      return array (← items >>= child)
    | "mote_id" =>
      let [format] ← record? ["format_properties"] 0 fields | none
      return moteId (← defaulted? [] allowed? format)
    | _ => none

end SchemaNode

namespace Schema

def toJson (s : Schema) : Json :=
  .obj
    [("id", .str s.id), ("title", .ofOption .str s.title),
      ("name", .ofOption (fun p => .str p.text) s.name), ("root", s.root.toJson)]

def fieldNames : List String :=
  ["id", "title", "name", "root"]

/-- Read a schema whose root is nested at most `limit` levels deep. -/
def ofJsonWithin? (limit : Nat) (j : Json) : Option Schema := do
  let [id, title, name, root] ← record? fieldNames 4 j | none
  let id ← id >>= string?
  let title ← optional? string? title
  let name ← optional? string? name
  let root ← root
  if limit < root.depth then none
  let root ← SchemaNode.ofJson? root.depth false root
  return { id := id, title := title, name := name.map fun text => { text := text }, root := root }

def ofJson? (j : Json) : Option Schema :=
  ofJsonWithin? j.depth j

end Schema
end Comfort
