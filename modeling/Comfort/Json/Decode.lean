import Comfort.Json.Basic

/-!
Reading values of other types from JSON values.

A record may be given as an object or as an array of its fields in order.  In an object a field that
is not known is ignored and a known one must not be doubled; in an array the fields at the end may
be missing when they have a default, and nothing may follow the last field.
-/

namespace Comfort
namespace Json

/-- The fields `names` of a record, of which an array must give at least the first `least`. -/
def record? (names : List String) (least : Nat) : Json → Option (List (Option Json))
  | obj fields =>
    if names.any fun name => 1 < (fields.filter fun e => e.1 == name).length then none
    else some (names.map fun name => Keyed.find? name fields)
  | arr items =>
    if least ≤ items.length && items.length ≤ names.length then
      some (items.map some ++ List.replicate (names.length - items.length) none)
    else none
  | _ => none

/-- Numbers from here on are no offsets. -/
def natLimit : Nat := twoTo 64

def nat? : Json → Option Nat
  | num (.whole (.ofNat n)) => if n < natLimit then some n else none
  | _ => none

def bool? : Json → Option Bool
  | bool b => some b
  | _ => none

def listOf? {α : Type} (decode : Json → Option α) : Json → Option (List α)
  | arr items => items.mapM decode
  | _ => none

def strings? : Json → Option (List String) :=
  listOf? string?

/-- A field that may be absent or null. -/
def optional? {α : Type} (decode : Json → Option α) : Option Json → Option (Option α)
  | none => some none
  | some null => some none
  | some j => (decode j).map some

/-- A field that has a default.  Null is not a way to ask for it. -/
def defaulted? {α : Type} (default : α) (decode : Json → Option α) : Option Json → Option α
  | none => some default
  | some j => decode j

end Json
end Comfort
