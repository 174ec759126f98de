import Comfort.Schema.Node

/-!
Finding the node that governs a path.

The path is followed through declared properties, additional properties and array items.  Where
several variants are possible, the sample decides: the first variant that is an object and agrees
with the sample in all its constant strings is taken.
-/

namespace Comfort

inductive SchemaError where
  | notFound (schemaId : String)
  | unknownPath (path segment : String)
  | noMatchingVariant (path : String)
  | notAMoteReference (path : String)
  deriving DecidableEq

namespace SchemaError

def message : SchemaError → String
  | notFound schemaId => schemaId ++ " schema not found in working copy"
  | unknownPath path segment =>
    "schema path " ++ path ++ " does not exist at segment '" ++ segment ++ "'"
  | noMatchingVariant path => "no one_of variant matches the sample data at " ++ path
  | notAMoteReference path =>
    "subschema at " ++ path ++ " is not a mote reference with allowed schemas"

end SchemaError

def pathText (path : List String) : String :=
  "/".intercalate path

namespace SchemaNode

/-- Whether the value of a property agrees with the sample, if it is a constant string. -/
def agrees (sample : Option Json) : String × SchemaNode → Bool
  | (key, string (some constant)) =>
    (sample.bind fun j => j.field? key).bind Json.string? == some constant
  | _ => true

def matchesSample (sample : Option Json) : SchemaNode → Bool
  | object properties _ => properties.all (agrees sample)
  | _ => false

/-- The node itself, or the variant of it that the sample chooses.  `path` is where it stands. -/
def select (node : SchemaNode) (sample : Option Json) (path : List String) :
    Except SchemaError SchemaNode :=
  match node with
  | oneOf variants =>
    match variants.find? (matchesSample sample) with
    | some variant => .ok variant
    | none => .error (.noMatchingVariant (pathText path))
  | node => .ok node

def child? (segment : String) : SchemaNode → Option SchemaNode
  | object properties additional => (Keyed.find? segment properties).or additional
  | array items => some items
  | _ => none

/-- Follow `rest` from a node that stands at `path`. -/
def follow (path : List String) :
    List String → SchemaNode → Option Json → Except SchemaError SchemaNode
  | [], node, sample => node.select sample path
  | segment :: rest, node, sample => do
    let node ← node.select sample path
    match node.child? segment with
    | none => .error (.unknownPath (pathText (path ++ segment :: rest)) segment)
    | some child => follow (path ++ [segment]) rest child (sample.bind fun j => j.field? segment)

end SchemaNode

namespace Schema

/-- The node that governs `path` in the data.  The sample has the shape of a mote. -/
def resolve (schema : Schema) (path : List String) (sample : Json) :
    Except SchemaError SchemaNode :=
  schema.root.follow [] path (sample.field? "data")

end Schema
end Comfort
