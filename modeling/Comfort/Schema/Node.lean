import Comfort.Mote.Pointer

/-!
Schemas of motes.

A schema says where the display name of a mote stands and describes its data by a tree of nodes.
-/

namespace Comfort

inductive SchemaNode where
  /-- Declared properties, and the node of every other key if other keys are allowed. -/
  | object (properties : List (String × SchemaNode)) (additional : Option SchemaNode)
  | oneOf (variants : List SchemaNode)
  /-- Any string, or one string only. -/
  | string (constant : Option String)
  | number
  | boolean
  | array (items : SchemaNode)
  /-- The id of a mote that has one of the listed schemas. -/
  | moteId (allowed : List String)

structure Schema where
  id : String
  title : Option String
  /-- Where the display name of a mote stands. -/
  name : Option Pointer
  root : SchemaNode

namespace Schema

/-- The schema of comforts where nothing else is configured. -/
def comfortId : String := "cl2_comfort"

/-- The schema of quests where nothing else is configured. -/
def questId : String := "cl2_quest"

end Schema
end Comfort
