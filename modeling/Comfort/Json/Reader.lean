import Comfort.Json.Raw

/-!
Reading JSON.

The parts of a text that are looked at must have values: their numbers must not be too great, and
the escapes in their strings must name whole characters.  A `Shape` says which parts those are.
-/

namespace Comfort
namespace Json

/-! ## Numbers -/

/-- Whole numbers from here on are kept as floating point numbers. -/
def wholeLimit : Nat := twoTo 64

def negativeLimit : Nat := twoTo 63

/-- Append digits to a significand for as long as it stays below the limit.  The result counts the
digits that were left out. -/
def appendDigits (significand : Nat) : List Char → Nat × Nat
  | [] => (significand, 0)
  | d :: ds =>
    let next := significand * 10 + (d.toNat - '0'.toNat)
    if next < wholeLimit then appendDigits next ds else (significand, ds.length + 1)

/-- A whole number within the limits is kept as it is.  All others are rounded. -/
def Numeral.value? (n : Numeral) : Option JsonNumber :=
  let (significand, raised) := appendDigits 0 n.whole
  if n.fraction.isEmpty && n.exponent.isNone then
    if raised != 0 then (Binary64.ofDecimal? n.negative significand raised).map .float
    else if !n.negative then some (.whole significand)
    else if significand == 0 || negativeLimit < significand then
      (Binary64.ofDecimal? true significand 0).map .float
    else some (.whole (-significand))
  else
    let (significand, dropped) := appendDigits significand n.fraction
    let lowered : Int := n.fraction.length - dropped
    let power := (raised : Int) - lowered + n.exponent.getD 0
    (Binary64.ofDecimal? n.negative significand power).map .float

/-! ## Strings -/

/-- Two code units can stand for one character, and then both must be there. -/
def joinUnits? : List StringUnit → Option (List Char)
  | [] => some []
  | .char c :: rest => (joinUnits? rest).map (c :: ·)
  | .code high :: .code low :: rest =>
    if 0xD800 ≤ high && high < 0xDC00 then
      if 0xDC00 ≤ low && low < 0xE000 then
        let c := Char.ofNat (0x10000 + (high - 0xD800) * 0x400 + (low - 0xDC00))
        (joinUnits? rest).map (c :: ·)
      else none
    else if 0xDC00 ≤ high && high < 0xE000 then none
    else (joinUnits? (.code low :: rest)).map (Char.ofNat high :: ·)
  | .code n :: rest =>
    if 0xD800 ≤ n && n < 0xE000 then none else (joinUnits? rest).map (Char.ofNat n :: ·)

def text? (units : List StringUnit) : Option String :=
  (joinUnits? units).map String.ofList

/-! ## Values -/

/-- Which parts of a value are looked at. -/
inductive Shape where
  | whole
  | list (item : Shape)
  /-- In an object, the fields with these names.  An array gives them in this order. -/
  | record (fields : List (String × Shape))

/-- A record of which the named fields are looked at as a whole. -/
def Shape.ofNames (names : List String) : Shape :=
  .record (names.map fun name => (name, .whole))

namespace Raw

mutual

/-- The value, without the parts that are not looked at.  The names of fields are always looked
at where some of the fields are. -/
def value? (shape : Shape) : Raw → Option Json
  | null => some .null
  | bool b => some (.bool b)
  | num n => n.value?.map .num
  | str units => (text? units).map .str
  | arr items =>
    match shape with
    | .whole => (itemValues? .whole items).map .arr
    | .list item => (itemValues? item items).map .arr
    | .record fields => (positionValues? fields items).map .arr
  | obj fields =>
    match shape with
    | .record known => (knownValues? known fields).map .obj
    | _ => (fieldValues? fields).map .obj
termination_by structural raw => raw

def itemValues? (shape : Shape) : List Raw → Option (List Json)
  | [] => some []
  | raw :: rest => do return (← value? shape raw) :: (← itemValues? shape rest)
termination_by structural items => items

def positionValues? (shapes : List (String × Shape)) : List Raw → Option (List Json)
  | [] => some []
  | raw :: rest => do
    let shape := (shapes.head?.map Prod.snd).getD .whole
    return (← value? shape raw) :: (← positionValues? (shapes.drop 1) rest)
termination_by structural items => items

def fieldValues? : List (List StringUnit × Raw) → Option (List (String × Json))
  | [] => some []
  | (key, raw) :: rest => do
    return (← text? key, ← value? .whole raw) :: (← fieldValues? rest)
termination_by structural fields => fields

def knownValues? (known : List (String × Shape)) :
    List (List StringUnit × Raw) → Option (List (String × Json))
  | [] => some []
  | (key, raw) :: rest => do
    let key ← text? key
    let more ← knownValues? known rest
    match known.lookup key with
    | none => some more
    | some shape => return (key, ← value? shape raw) :: more
termination_by structural fields => fields

end

end Raw

/-- Read a text of which only what `shape` names is looked at. -/
def readWithin? (shape : Shape) (cs : List Char) : Option Json :=
  (Raw.ofText? cs).bind (Raw.value? shape)

def read? (cs : List Char) : Option Json :=
  readWithin? .whole cs

end Json
end Comfort
