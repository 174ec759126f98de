import Comfort.Keyed
import Comfort.Number.Binary64

/-!
JSON values.

A value read from text keeps its object fields as they were written, doubled keys included.
`canonical` turns it into the form in which free data is held, where the keys of each object ascend
and the last of several fields with one key counts.
-/

namespace Comfort

/-- Whole numbers are kept apart from the others. -/
inductive JsonNumber where
  | whole (n : Int)
  | float (f : Binary64)
  deriving DecidableEq

inductive Json where
  | null
  | bool (b : Bool)
  | num (n : JsonNumber)
  | str (s : String)
  | arr (items : List Json)
  | obj (fields : List (String × Json))

namespace Json

def nat (n : Nat) : Json :=
  num (.whole n)

def strings (ss : List String) : Json :=
  arr (ss.map str)

/-- An absent value is written as null. -/
def ofOption {α : Type} (encode : α → Json) : Option α → Json
  | none => null
  | some a => encode a

def isEmptyObject : Json → Bool
  | obj [] => true
  | _ => false

def string? : Json → Option String
  | str s => some s
  | _ => none

/-- The value of a field.  Only objects have fields. -/
def field? (key : String) : Json → Option Json
  | obj fields => Keyed.find? key fields
  | _ => none

/-! ## Depth -/

mutual

def depth : Json → Nat
  | arr items => itemsDepth items + 1
  | obj fields => fieldsDepth fields + 1
  | _ => 0
termination_by structural j => j

def itemsDepth : List Json → Nat
  | [] => 0
  | j :: rest => max j.depth (itemsDepth rest)
termination_by structural j => j

def fieldsDepth : List (String × Json) → Nat
  | [] => 0
  | (_, j) :: rest => max j.depth (fieldsDepth rest)
termination_by structural j => j

end

/-! ## Canonical form -/

mutual

def canonical : Json → Json
  | arr items => arr (canonicalItems items)
  | obj fields => obj (Keyed.ofEntries (canonicalFields fields))
  | null => null
  | bool b => bool b
  | num n => num n
  | str s => str s
termination_by structural j => j

def canonicalItems : List Json → List Json
  | [] => []
  | j :: rest => j.canonical :: canonicalItems rest
termination_by structural j => j

def canonicalFields : List (String × Json) → List (String × Json)
  | [] => []
  | (key, j) :: rest => (key, j.canonical) :: canonicalFields rest
termination_by structural j => j

end

mutual

/-- Values in which the keys of every object ascend. -/
def Canonical : Json → Prop
  | arr items => CanonicalItems items
  | obj fields => Keyed.Ascending fields ∧ CanonicalFields fields
  | _ => True
termination_by structural j => j

def CanonicalItems : List Json → Prop
  | [] => True
  | j :: rest => j.Canonical ∧ CanonicalItems rest
termination_by structural j => j

def CanonicalFields : List (String × Json) → Prop
  | [] => True
  | (_, j) :: rest => j.Canonical ∧ CanonicalFields rest
termination_by structural j => j

end

end Json
end Comfort
