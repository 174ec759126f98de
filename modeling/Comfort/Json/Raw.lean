import Comfort.Json.Basic

/-!
JSON texts cut into their parts.

A part keeps its numbers and strings as they are written: a number may still turn out to be too
great, and a string to name half a character.  Whether that matters depends on whether the part is
looked at, so `Json.Reader` decides it.

Cutting is total: `read?` of a part spends one unit of fuel at each step into or along a structure,
and `ofText?` gives it more than a text of that length can use up.  Nothing but blanks may follow
the value.
-/

namespace Comfort
namespace Json

/-- A number as it is written.  The parts of it that are not there are absent or empty. -/
structure Numeral where
  negative : Bool
  whole : List Char
  fraction : List Char
  exponent : Option Int

/-- A character of a string, or the code unit that an escape names. -/
inductive StringUnit where
  | char (c : Char)
  | code (n : Nat)

inductive Raw where
  | null
  | bool (b : Bool)
  | num (n : Numeral)
  | str (units : List StringUnit)
  | arr (items : List Raw)
  | obj (fields : List (List StringUnit × Raw))

/-! ## Numbers -/

namespace Numeral

def digitsValue (ds : List Char) : Nat :=
  ds.foldl (fun n d => n * 10 + (d.toNat - '0'.toNat)) 0

/-- An optional exponent.  The letter must be followed by digits. -/
def exponent? : List Char → Option (Option Int × List Char)
  | c :: cs =>
    if c == 'e' || c == 'E' then
      let negative := cs.head? == some '-'
      let cs := if negative || cs.head? == some '+' then cs.drop 1 else cs
      let digits := cs.takeWhile Char.isDigit
      if digits.isEmpty then none
      else
        let n : Int := digitsValue digits
        some (some (if negative then -n else n), cs.dropWhile Char.isDigit)
    else some (none, c :: cs)
  | [] => some (none, [])

/-- The digits of an optional fraction.  The point must be followed by digits. -/
def fraction? : List Char → Option (List Char × List Char)
  | '.' :: cs =>
    let digits := cs.takeWhile Char.isDigit
    if digits.isEmpty then none else some (digits, cs.dropWhile Char.isDigit)
  | cs => some ([], cs)

/-- A whole part has no zeros in front. -/
def read? (cs : List Char) : Option (Numeral × List Char) := do
  let negative := cs.head? == some '-'
  let cs := if negative then cs.drop 1 else cs
  let whole := if cs.head? == some '0' then ['0'] else cs.takeWhile Char.isDigit
  if whole.isEmpty then none
  let rest := cs.drop whole.length
  if rest.head?.any Char.isDigit then none
  let (fraction, rest) ← fraction? rest
  let (exponent, rest) ← exponent? rest
  let n : Numeral :=
    { negative := negative, whole := whole, fraction := fraction, exponent := exponent }
  return (n, rest)

end Numeral

/-! ## Strings -/

def hexValue? (c : Char) : Option Nat :=
  if c.isDigit then some (c.toNat - '0'.toNat)
  else if 'a' ≤ c && c ≤ 'f' then some (c.toNat - 'a'.toNat + 10)
  else if 'A' ≤ c && c ≤ 'F' then some (c.toNat - 'A'.toNat + 10)
  else none

def hexValue4? (a b c d : Char) : Option Nat := do
  let a ← hexValue? a
  let b ← hexValue? b
  let c ← hexValue? c
  let d ← hexValue? d
  return ((a * 16 + b) * 16 + c) * 16 + d

def shortEscape? (c : Char) : Option Char :=
  if c == '"' || c == '\\' || c == '/' then some c
  else if c == 'b' then some (Char.ofNat 0x08)
  else if c == 'f' then some (Char.ofNat 0x0C)
  else if c == 'n' then some '\n'
  else if c == 'r' then some '\r'
  else if c == 't' then some '\t'
  else none

/-- The raw content of a string up to its closing quote, and what follows the quote. -/
def rawString? : List Char → Option (List Char × List Char)
  | [] => none
  | '"' :: rest => some ([], rest)
  | '\\' :: c :: rest => (rawString? rest).map fun (raw, rest) => ('\\' :: c :: raw, rest)
  | c :: rest =>
    if c.toNat < 0x20 then none
    else (rawString? rest).map fun (raw, rest) => (c :: raw, rest)

def units? : List Char → Option (List StringUnit)
  | [] => some []
  | '\\' :: 'u' :: a :: b :: c :: d :: rest => do
    let n ← hexValue4? a b c d
    return .code n :: (← units? rest)
  | '\\' :: c :: rest => do
    let c ← shortEscape? c
    return .char c :: (← units? rest)
  | ['\\'] => none
  | c :: rest => return .char c :: (← units? rest)

/-- The content of a string whose opening quote has been read. -/
def quoted? (cs : List Char) : Option (List StringUnit × List Char) := do
  let (raw, rest) ← rawString? cs
  return (← units? raw, rest)

/-! ## Values -/

def isSpace (c : Char) : Bool :=
  c == ' ' || c == '\t' || c == '\n' || c == '\r'

def skipSpace (cs : List Char) : List Char :=
  cs.dropWhile isSpace

namespace Raw

mutual

def read? : Nat → List Char → Option (Raw × List Char)
  | 0, _ => none
  | fuel + 1, cs =>
    match skipSpace cs with
    | 'n' :: 'u' :: 'l' :: 'l' :: rest => some (null, rest)
    | 't' :: 'r' :: 'u' :: 'e' :: rest => some (bool true, rest)
    | 'f' :: 'a' :: 'l' :: 's' :: 'e' :: rest => some (bool false, rest)
    | '"' :: rest => (quoted? rest).map fun (units, rest) => (str units, rest)
    | '[' :: rest =>
      match skipSpace rest with
      | ']' :: rest => some (arr [], rest)
      | rest => (items? fuel rest).map fun (items, rest) => (arr items, rest)
    | '\x7b' :: rest =>
      match skipSpace rest with
      | '\x7d' :: rest => some (obj [], rest)
      | rest => (fields? fuel rest).map fun (fields, rest) => (obj fields, rest)
    | rest => (Numeral.read? rest).map fun (n, rest) => (num n, rest)

def items? : Nat → List Char → Option (List Raw × List Char)
  | 0, _ => none
  | fuel + 1, cs => do
    let (raw, rest) ← read? fuel cs
    match skipSpace rest with
    | ']' :: rest => some ([raw], rest)
    | ',' :: rest =>
      let (items, rest) ← items? fuel rest
      some (raw :: items, rest)
    | _ => none

def fields? : Nat → List Char → Option (List (List StringUnit × Raw) × List Char)
  | 0, _ => none
  | fuel + 1, cs => do
    let .cons '"' rest := skipSpace cs | none
    let (key, rest) ← quoted? rest
    let .cons ':' rest := skipSpace rest | none
    let (raw, rest) ← read? fuel rest
    match skipSpace rest with
    | '\x7d' :: rest => some ([(key, raw)], rest)
    | ',' :: rest =>
      let (fields, rest) ← fields? fuel rest
      some ((key, raw) :: fields, rest)
    | _ => none

end

def ofText? (cs : List Char) : Option Raw := do
  let (raw, rest) ← read? (2 * cs.length + 2) cs
  if (skipSpace rest).isEmpty then some raw else none

end Raw
end Json
end Comfort
