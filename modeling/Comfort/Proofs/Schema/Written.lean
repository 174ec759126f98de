import Comfort.Proofs.Json.Decoded
import Comfort.Proofs.Keyed
import Comfort.Schema.Codec

/-!
Schemas are decoded from what they are written as.

A tree whose properties ascend at every level comes back from its JSON form, given at least as much
fuel as the form is deep.  A schema comes back if the form of its root is no deeper than the limit,
and otherwise nothing is read.
-/

namespace Comfort
namespace SchemaNode

open Json (optional? string? listOf? strings?)

/-! ## Trees as a program can hold them -/

mutual

/-- The property keys of every node ascend, as each stands there once and in its order. -/
def Ordered : SchemaNode → Prop
  | object properties additional =>
    Keyed.Ascending properties ∧ OrderedProperties properties ∧ OrderedAdditional additional
  | oneOf variants => OrderedVariants variants
  | array items => items.Ordered
  | _ => True
termination_by structural node => node

def OrderedProperties : List (String × SchemaNode) → Prop
  | [] => True
  | (_, node) :: rest => node.Ordered ∧ OrderedProperties rest
termination_by structural properties => properties

def OrderedAdditional : Option SchemaNode → Prop
  | none => True
  | some node => node.Ordered
termination_by structural additional => additional

def OrderedVariants : List SchemaNode → Prop
  | [] => True
  | node :: rest => node.Ordered ∧ OrderedVariants rest
termination_by structural variants => variants

end

/-! ## What a node is written as -/

theorem exists_fields_toJson (node : SchemaNode) : ∃ fields, node.toJson = .obj fields := by
  cases node <;> exact ⟨_, rfl⟩

theorem depth_toJson_pos (node : SchemaNode) : 0 < node.toJson.depth := by
  obtain ⟨fields, hfields⟩ := exists_fields_toJson node
  rw [hfields]
  exact Nat.succ_pos _

theorem optional?_toJson {decode : Json → Option SchemaNode} {node : SchemaNode}
    (h : decode node.toJson = some node) :
    optional? decode (some (additionalToJson (some node))) = some (some node) := by
  obtain ⟨fields, hfields⟩ := exists_fields_toJson node
  rw [additionalToJson]
  rw [hfields] at h ⊢
  rw [optional?, h]
  · rfl
  · exact fun hnull => nomatch hnull

mutual

theorem wholeNumbers_toJson (node : SchemaNode) : node.toJson.WholeNumbers := by
  match node with
  | object properties additional =>
    exact ⟨trivial, wholeNumbers_propertiesToJson properties,
      wholeNumbers_additionalToJson additional, trivial⟩
  | oneOf variants => exact ⟨trivial, wholeNumbers_variantsToJson variants, trivial⟩
  | string none => exact ⟨trivial, trivial, trivial⟩
  | string (some constant) => exact ⟨trivial, trivial, trivial⟩
  | number => exact ⟨trivial, trivial⟩
  | boolean => exact ⟨trivial, trivial⟩
  | array items => exact ⟨trivial, wholeNumbers_toJson items, trivial⟩
  | moteId allowed => exact ⟨trivial, ⟨Json.wholeNumbers_strings allowed, trivial⟩, trivial⟩
termination_by structural node

theorem wholeNumbers_propertiesToJson (properties : List (String × SchemaNode)) :
    Json.WholeNumbersFields (propertiesToJson properties) := by
  match properties with
  | [] => trivial
  | (key, node) :: rest =>
    exact ⟨wholeNumbers_toJson node, wholeNumbers_propertiesToJson rest⟩
termination_by structural properties

theorem wholeNumbers_additionalToJson (additional : Option SchemaNode) :
    (additionalToJson additional).WholeNumbers := by
  match additional with
  | none => trivial
  | some node => exact wholeNumbers_toJson node
termination_by structural additional

theorem wholeNumbers_variantsToJson (variants : List SchemaNode) :
    Json.WholeNumbersItems (variantsToJson variants) := by
  match variants with
  | [] => trivial
  | node :: rest => exact ⟨wholeNumbers_toJson node, wholeNumbers_variantsToJson rest⟩
termination_by structural variants

end

/-! ## One level of decoding -/

theorem ofJson?_object (fuel : Nat) (byNumber : Bool) (properties additional : Json) :
    ofJson? (fuel + 1) byNumber
        (.obj [("type", .str "object"), ("properties", properties),
          ("additional_properties", additional)])
      = (do
        let properties ← properties? (ofJson? fuel true) properties
        return object properties (← optional? (ofJson? fuel true) (some additional))) := rfl

theorem ofJson?_oneOf (fuel : Nat) (byNumber : Bool) (variants : Json) :
    ofJson? (fuel + 1) byNumber (.obj [("type", .str "one_of"), ("variants", variants)])
      = (do return oneOf (← listOf? (ofJson? fuel true) variants)) := rfl

theorem ofJson?_array (fuel : Nat) (byNumber : Bool) (items : Json) :
    ofJson? (fuel + 1) byNumber (.obj [("type", .str "array"), ("items", items)])
      = (do return array (← ofJson? fuel true items)) := rfl

theorem ofJson?_moteId (fuel : Nat) (byNumber : Bool) (allowed : Json) :
    ofJson? (fuel + 1) byNumber
        (.obj [("type", .str "mote_id"), ("format_properties", .obj [("allow_schemas", allowed)])])
      = (do return moteId (← strings? allowed)) := rfl

/-! ## Decoding what was written -/

mutual

theorem ofJson?_toJson (node : SchemaNode) (h : node.Ordered) (fuel : Nat) (byNumber : Bool)
    (hfuel : node.toJson.depth ≤ fuel) : ofJson? fuel byNumber node.toJson = some node := by
  obtain ⟨fuel, rfl⟩ : ∃ n, fuel = n + 1 := ⟨fuel - 1, by have := depth_toJson_pos node; omega⟩
  match node with
  | object properties additional =>
    simp only [toJson, Json.depth, Json.fieldsDepth] at hfuel
    have hproperties := mapM_propertiesToJson properties h.2.1 fuel (by omega)
    have hadditional := optional?_additionalToJson additional h.2.2 fuel (by omega)
    rw [toJson, ofJson?_object, hadditional, properties?, hproperties, Option.map_some,
      Keyed.ofEntries_of_ascending h.1]
    rfl
  | oneOf variants =>
    simp only [toJson, Json.depth, Json.fieldsDepth] at hfuel
    have hvariants := mapM_variantsToJson variants h fuel (by omega)
    rw [toJson, ofJson?_oneOf, listOf?, hvariants]
    rfl
  | string none => rfl
  | string (some constant) => rfl
  | number => rfl
  | boolean => rfl
  | array items =>
    simp only [toJson, Json.depth, Json.fieldsDepth] at hfuel
    have hitems := ofJson?_toJson items h fuel true (by omega)
    rw [toJson, ofJson?_array, hitems]
    rfl
  | moteId allowed =>
    rw [toJson, ofJson?_moteId, Json.strings?_strings]
    rfl
termination_by structural node

theorem mapM_propertiesToJson (properties : List (String × SchemaNode))
    (h : OrderedProperties properties) (fuel : Nat)
    (hfuel : Json.fieldsDepth (propertiesToJson properties) ≤ fuel) :
    ((propertiesToJson properties).mapM fun e => (ofJson? fuel true e.2).map fun node => (e.1, node))
      = some properties := by
  match properties with
  | [] => rfl
  | (key, node) :: rest =>
    simp only [propertiesToJson, Json.fieldsDepth] at hfuel
    have hnode := ofJson?_toJson node h.1 fuel true (by omega)
    have hrest := mapM_propertiesToJson rest h.2 fuel (by omega)
    rw [propertiesToJson, List.mapM_cons, hnode, hrest]
    rfl
termination_by structural properties

theorem optional?_additionalToJson (additional : Option SchemaNode)
    (h : OrderedAdditional additional) (fuel : Nat)
    (hfuel : (additionalToJson additional).depth ≤ fuel) :
    optional? (ofJson? fuel true) (some (additionalToJson additional)) = some additional := by
  match additional with
  | none => rfl
  | some node => exact optional?_toJson (ofJson?_toJson node h fuel true hfuel)
termination_by structural additional

theorem mapM_variantsToJson (variants : List SchemaNode) (h : OrderedVariants variants) (fuel : Nat)
    (hfuel : Json.itemsDepth (variantsToJson variants) ≤ fuel) :
    (variantsToJson variants).mapM (ofJson? fuel true) = some variants := by
  match variants with
  | [] => rfl
  | node :: rest =>
    simp only [variantsToJson, Json.itemsDepth] at hfuel
    have hnode := ofJson?_toJson node h.1 fuel true (by omega)
    have hrest := mapM_variantsToJson rest h.2 fuel (by omega)
    rw [variantsToJson, List.mapM_cons, hnode, hrest]
    rfl
termination_by structural variants

end

end SchemaNode

namespace Schema

open Json (optional? string?)

theorem wholeNumbers_toJson (s : Schema) : s.toJson.WholeNumbers := by
  refine ⟨trivial, ?_, ?_, s.root.wholeNumbers_toJson, trivial⟩
  · cases s.title <;> trivial
  · cases s.name <;> trivial

theorem ofJsonWithin?_fields (limit : Nat) (id title name root : Json) :
    ofJsonWithin? limit (.obj [("id", id), ("title", title), ("name", name), ("root", root)])
      = (do
        let id ← string? id
        let title ← optional? string? (some title)
        let name ← optional? string? (some name)
        if limit < root.depth then none
        let root ← SchemaNode.ofJson? root.depth false root
        return { id := id, title := title, name := name.map fun text => { text := text }
                 root := root }) := rfl

/-- A schema is read back where its root is written within the limit. -/
theorem ofJsonWithin?_toJson {s : Schema} (h : s.root.Ordered) (limit : Nat) :
    ofJsonWithin? limit s.toJson = if s.root.toJson.depth ≤ limit then some s else none := by
  obtain ⟨id, title, name, root⟩ := s
  have hroot := root.ofJson?_toJson h root.toJson.depth false (Nat.le_refl _)
  have htitle := Json.optional?_ofOption (fun title => title) title
  have hname := Json.optional?_ofOption Pointer.text name
  rw [toJson, ofJsonWithin?_fields, htitle, hname, hroot]
  by_cases hlimit : root.toJson.depth ≤ limit
  · rw [if_pos hlimit]
    have hnames : (name.map Pointer.text).map (fun text => { text := text }) = name := by
      cases name <;> rfl
    simp only [string?, Option.bind_eq_bind, Option.bind_some, if_neg (Nat.not_lt.2 hlimit), hnames,
      Option.map_id_fun']
    rfl
  · rw [if_neg hlimit]
    simp [string?, Nat.not_le.1 hlimit]

end Schema
end Comfort
