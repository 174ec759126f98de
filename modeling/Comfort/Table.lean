import Comfort.Keyed

/-!
Tables with string keys.

A table is a list of entries whose keys ascend, so two tables with the same entries are equal.
-/

namespace Comfort

structure Table (α : Type) where
  entries : List (String × α)
  ascending : Keyed.Ascending entries

namespace Table

variable {α : Type}

def empty : Table α :=
  { entries := [], ascending := List.Pairwise.nil }

def find? (t : Table α) (key : String) : Option α :=
  Keyed.find? key t.entries

def contains (t : Table α) (key : String) : Bool :=
  (t.find? key).isSome

def insert (t : Table α) (key : String) (a : α) : Table α :=
  { entries := Keyed.set key a t.entries, ascending := Keyed.ascending_set t.ascending }

def erase (t : Table α) (key : String) : Table α :=
  { entries := Keyed.erase key t.entries, ascending := Keyed.ascending_erase t.ascending }

def values (t : Table α) : List α :=
  t.entries.map Prod.snd

@[simp] theorem find?_empty (key : String) : (empty : Table α).find? key = none := rfl

theorem find?_insert (t : Table α) (key key' : String) (a : α) :
    (t.insert key a).find? key' = if key = key' then some a else t.find? key' :=
  Keyed.find?_set key key' a t.entries

theorem find?_erase (t : Table α) (key key' : String) :
    (t.erase key).find? key' = if key = key' then none else t.find? key' :=
  Keyed.find?_erase key key' t.entries

end Table
end Comfort
