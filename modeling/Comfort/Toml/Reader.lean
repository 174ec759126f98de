import Comfort.Toml.Lexical
import Comfort.Toml.Scalar

/-!
Reading TOML documents.

A document is a list of lines.  A header chooses the table that the lines after it fill, and the
table is looked up anew for each of them, so all rules about tables are those of `Toml.Basic`.
-/

namespace Comfort
namespace Toml

mutual

/-- A value, in which at most `room` brackets and braces may be open at a time. -/
def value? : Nat → Nat → List Char → Option (Value × List Char)
  | 0, _, _ => none
  | fuel + 1, room, cs =>
    match room, cs with
    | _, '"' :: _ | _, '\'' :: _ =>
      (string? cs).map fun (s, rest) => (.string (String.ofList s), rest)
    | 0, '[' :: _ | 0, '\x7b' :: _ => none
    | room + 1, '[' :: rest =>
      (items? fuel room rest).map fun (items, rest) => (.array items, rest)
    | room + 1, '\x7b' :: rest =>
      (fields? fuel room true [] rest).map fun (entries, rest) => (.table .inline entries, rest)
    | _, cs => (scalar? (token cs)).map fun v => (v, cs.drop (token cs).length)

def items? : Nat → Nat → List Char → Option (List Value × List Char)
  | 0, _, _ => none
  | fuel + 1, room, cs => do
    match ← skipTrivia? (cs.length + 1) cs with
    | ']' :: rest => some ([], rest)
    | cs =>
      let (v, rest) ← value? fuel room cs
      match ← skipTrivia? (rest.length + 1) rest with
      | ',' :: rest =>
        let (items, rest) ← items? fuel room rest
        some (v :: items, rest)
      | ']' :: rest => some ([v], rest)
      | _ => none

/-- The fields of an inline table, with the brace that closes it. -/
def fields? : Nat → Nat → Bool → Entries → List Char → Option (Entries × List Char)
  | 0, _, _, _, _ => none
  | fuel + 1, room, mayClose, entries, cs => do
    let cs ← skipTrivia? (cs.length + 1) cs
    match mayClose, cs with
    | true, '\x7d' :: rest => some (entries, rest)
    | _, cs =>
      let (path, v, rest) ← keyValue? fuel room cs
      let entries ← assign? .inline entries path v
      match ← skipTrivia? (rest.length + 1) rest with
      | ',' :: rest => fields? fuel room true entries rest
      | '\x7d' :: rest => some (entries, rest)
      | _ => none

def keyValue? : Nat → Nat → List Char → Option (List String × Value × List Char)
  | 0, _, _ => none
  | fuel + 1, room, cs => do
    let (path, rest) ← key? cs
    let .cons '=' rest := skipSpace rest | none
    let (v, rest) ← value? fuel room (skipSpace rest)
    some (path, v, rest)

end

structure Document where
  root : Entries
  /-- The table that is being filled. -/
  current : List String

/-- Add a key to the table that is being filled. -/
def Document.assign? (d : Document) (path : List String) (v : Value) : Option Document :=
  let assign (kind : TableKind) (entries : Entries) : Option Entries :=
    Toml.assign? kind entries path v
  (update? false assign d.current .header d.root).map fun root => { d with root := root }

def header? (d : Document) (cs : List Char) : Option (Document × List Char) :=
  match cs with
  | '[' :: '[' :: rest => do
    let (path, rest) ← key? rest
    let .cons ']' (.cons ']' rest) := skipSpace rest | none
    let root ← appendTable? d.root path
    some ({ root := root, current := path }, rest)
  | '[' :: rest => do
    let (path, rest) ← key? rest
    let .cons ']' rest := skipSpace rest | none
    let root ← defineTable? d.root path
    some ({ root := root, current := path }, rest)
  | _ => none

/-- Read one line, or several when its value goes on over them. -/
def line? (d : Document) (cs : List Char) : Option (Document × List Char) :=
  match skipSpace cs with
  | '[' :: rest => do
    let (d, rest) ← header? d ('[' :: rest)
    some (d, ← endLine? rest)
  | cs =>
    match endLine? cs with
    | some rest => some (d, rest)
    | none => do
      let (path, v, rest) ← keyValue? (2 * cs.length + 4) greatestDepth cs
      let d ← d.assign? path v
      some (d, ← endLine? rest)

def lines? : Nat → Document → List Char → Option Document
  | _, d, [] => some d
  | 0, _, _ => none
  | fuel + 1, d, cs => do
    let (d, rest) ← line? d cs
    lines? fuel d rest

/-- The root table of a text.  A byte order mark in front is skipped. -/
def read? (text : List Char) : Option Entries :=
  let cs := if text.head?.any fun c => c.toNat == 0xFEFF then text.drop 1 else text
  (lines? (cs.length + 1) { root := [], current := [] } cs).map Document.root

end Toml
end Comfort
