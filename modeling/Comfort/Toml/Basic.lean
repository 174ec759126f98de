import Comfort.Keyed

/-!
TOML values and how tables grow.

A table can be begun by a header, by the headers of tables below it, or by dotted keys, and it
remembers which, because that decides what may still be added to it: a header defines a table once,
a dotted key does not reach into a table that a header has defined, and nothing reaches into an
inline table.
-/

namespace Comfort
namespace Toml

inductive TableKind where
  /-- By its own header. -/
  | header
  /-- By the header of a table below it. -/
  | above
  /-- By dotted keys. -/
  | dotted
  /-- In braces. -/
  | inline
  deriving DecidableEq

inductive Value where
  | string (s : String)
  | integer (n : Int)
  | float
  | boolean (b : Bool)
  | dateTime
  | array (items : List Value)
  | table (kind : TableKind) (entries : List (String × Value))
  /-- An array of tables, each begun by a header. -/
  | tables (elements : List (List (String × Value)))

abbrev Entries := List (String × Value)

/-- Change the table at the end of a path, making the tables that are missing on the way.  An array
of tables stands for its last element. -/
def update? (byDots : Bool) (change : TableKind → Entries → Option Entries) :
    List String → TableKind → Entries → Option Entries
  | [], kind, entries => change kind entries
  | key :: rest, _, entries =>
    match Keyed.find? key entries with
    | none =>
      let kind := if byDots then .dotted else .above
      (update? byDots change rest kind []).map fun sub => entries ++ [(key, .table kind sub)]
    | some (.table kind sub) =>
      if kind = .inline ∨ (byDots ∧ kind = .header) then none
      else
        (update? byDots change rest kind sub).map fun sub =>
          Keyed.replace key (.table kind sub) entries
    | some (.tables elements) =>
      (update? byDots change rest .header (elements.getLast?.getD [])).map fun sub =>
        Keyed.replace key (.tables (elements.dropLast ++ [sub])) entries
    | some _ => none

/-- Set a new key in a table that starts at `kind` and `entries`.  The dots of a key define tables
of their own, so they neither lead to a table of another kind nor end nowhere. -/
def assign? (kind : TableKind) (entries : Entries) (path : List String) (value : Value) :
    Option Entries :=
  match path.getLast? with
  | none => none
  | some key =>
    let above := path.dropLast
    let set (kind : TableKind) (entries : Entries) : Option Entries :=
      if (kind = .dotted) = (above = []) then none
      else if (Keyed.find? key entries).isSome then none
      else some (entries ++ [(key, value)])
    update? true set above kind entries

def defineTable? (root : Entries) (path : List String) : Option Entries :=
  match path.getLast? with
  | none => none
  | some key =>
    let define (_ : TableKind) (entries : Entries) : Option Entries :=
      match Keyed.find? key entries with
      | none => some (entries ++ [(key, .table .header [])])
      | some (.table .above sub) => some (Keyed.replace key (.table .header sub) entries)
      | some _ => none
    update? false define path.dropLast .header root

def appendTable? (root : Entries) (path : List String) : Option Entries :=
  match path.getLast? with
  | none => none
  | some key =>
    let append (_ : TableKind) (entries : Entries) : Option Entries :=
      match Keyed.find? key entries with
      | none => some (entries ++ [(key, .tables [[]])])
      | some (.tables elements) => some (Keyed.replace key (.tables (elements ++ [[]])) entries)
      | some _ => none
    update? false append path.dropLast .header root

end Toml
end Comfort
