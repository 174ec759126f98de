import Comfort.Json.Basic
import Comfort.Text.Blank
import Comfort.Text.Split

/-!
Pointers into the data of a mote.

A pointer is a path whose segments are divided by slashes, and an empty segment counts for nothing.
It addresses a field only when its first segment is `data` and at least one further segment follows.
A write makes the objects that are missing on its way, and a delete drops every object that it
leaves empty on its way back.
-/

namespace Comfort

structure Pointer where
  text : String
  deriving DecidableEq

namespace Pointer

/-- The segment that every pointer into the data begins with. -/
def root : String := "data"

def segments (p : Pointer) : List String :=
  Text.parts '/' p.text.toList

/-- Append a segment, or several when `segment` has slashes of its own. -/
def join (p : Pointer) (segment : String) : Pointer :=
  { text := String.ofList (Text.dropEndWhile (· == '/') p.text.toList ++ '/' :: segment.toList) }

/-- The segments below the data, if the pointer begins there. -/
def dataSegments? (p : Pointer) : Option (List String) :=
  match p.segments with
  | first :: rest => if first = root then some rest else none
  | [] => none

/-- The segments of a pointer that addresses a field. -/
def fieldPath? (p : Pointer) : Option (List String) :=
  match p.dataSegments? with
  | some (first :: rest) => some (first :: rest)
  | _ => none

end Pointer

namespace Json

def at? : List String → Json → Option Json
  | [], j => some j
  | segment :: rest, j => (j.field? segment).bind (at? rest)

/-- The fields of an object.  Any other value counts as an object without fields. -/
def objectFields : Json → List (String × Json)
  | obj fields => fields
  | _ => []

/-- Put `value` at the end of `path`.  What is no object on the way is replaced by one. -/
def writeAt (value : Json) : List String → Json → Json
  | [], _ => value
  | segment :: rest, j =>
    let child := (Keyed.find? segment j.objectFields).getD (obj [])
    obj (Keyed.set segment (writeAt value rest child) j.objectFields)

/-- Remove the end of `path`, and every object on the way that is empty afterwards. -/
def deleteAt : List String → Json → Json
  | [], j => j
  | [segment], obj fields => obj (Keyed.erase segment fields)
  | segment :: rest, obj fields =>
    match Keyed.find? segment fields with
    | none => obj fields
    | some child =>
      let child := deleteAt rest child
      if child.isEmptyObject then obj (Keyed.erase segment fields)
      else obj (Keyed.set segment child fields)
  | _, j => j

end Json

structure InvalidPointer where
  pointer : Pointer
  deriving DecidableEq

namespace Pointer

def lookup? (p : Pointer) (data : Json) : Option Json :=
  p.dataSegments?.bind fun path => data.at? path

/-- Write a value into the data, or delete what is there when no value is given. -/
def apply (p : Pointer) (data : Json) (value : Option Json) : Except InvalidPointer Json :=
  match p.fieldPath?, value with
  | none, _ => .error { pointer := p }
  | some path, some value => .ok (Json.writeAt value path data)
  | some path, none => .ok (data.deleteAt path)

end Pointer
end Comfort
