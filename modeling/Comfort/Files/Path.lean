import Comfort.Text.Bytes
import Comfort.Text.Split

/-!
Paths of files.

A path is given by its parts.  The part `/` in front makes it absolute, and the parts of all other
paths are looked up from the working directory.  A part `.` is left out, as it says nothing but that
the parts before it lead to a directory.
-/

namespace Comfort

structure Path where
  parts : List String
  /-- A path that ends with a slash or with the part `.` can only lead to a directory. -/
  directory : Bool
  deriving DecidableEq

namespace Path

/-- The empty text is no path. -/
def ofString? (s : String) : Option Path :=
  let cs := s.toList
  if cs.isEmpty then none
  else
    let parts := (Text.parts '/' cs).filter (· != ".")
    let last := cs.reverse.takeWhile (· != '/')
    some
      { parts := if cs.head? == some '/' then "/" :: parts else parts
        directory := last == [] || last == ['.'] }

/-! ## Limits -/

def nameLimit : Nat := 255

def lengthLimit : Nat := 4095

/-- Whether a part can be looked up. -/
def isPart (part : String) : Bool :=
  Text.byteLength part.toList ≤ nameLimit

def length : List String → Nat
  | [] => 0
  | [part] => Text.byteLength part.toList
  | part :: rest =>
    let slash := if part = "/" then 0 else 1
    Text.byteLength part.toList + slash + length rest

/-- Whether the system takes a path with these parts at all.  It ends a path at a null character, so
one that has such a character itself cannot be passed to it. -/
def isPassable (parts : List String) : Bool :=
  length parts ≤ lengthLimit && parts.all fun part => !part.toList.contains (Char.ofNat 0)

/-! ## Neighbours -/

def parentParts (p : Path) : List String :=
  p.parts.dropLast

/-- A name without its last extension.  A dot in front begins no extension. -/
def stem (name : List Char) : List Char :=
  let reversed := name.reverse
  let rest := reversed.dropWhile (· != '.')
  match rest with
  | _ :: before => if before.isEmpty then name else before.reverse
  | [] => name

/-- The same path with another last extension.  A path that ends with no name stays as it is. -/
def withExtension (p : Path) (extension : String) : Path :=
  match p.parts.getLast? with
  | none => p
  | some name =>
    if name == ".." || name == "/" then p
    else
      let name := String.ofList (stem name.toList ++ '.' :: extension.toList)
      { parts := p.parts.dropLast ++ [name], directory := false }

end Path
end Comfort
