import Comfort.Ident.Sha1

/-!
Short ids derived from a seed.

A derived id is the beginning of the name based UUID, version 5, of its seed in the namespace of
object identifiers.  One seed always gives one id, so that proposed edits and committed keys are the
same from one run to the next.
-/

namespace Comfort
namespace Ident

/-- The namespace of object identifiers. -/
def namespaceBytes : List UInt8 :=
  [0x6B, 0xA7, 0xB8, 0x12, 0x9D, 0xAD, 0x11, 0xD1, 0x80, 0xB4, 0x00, 0xC0, 0x4F, 0xD4, 0x30, 0xC8]

def utf8Bytes (s : String) : List UInt8 :=
  s.toList.flatMap String.utf8EncodeChar

def hexPair (b : UInt8) : List Char :=
  [Nat.digitChar (b.toNat / 16), Nat.digitChar (b.toNat % 16)]

/-- Derived ids have this many digits. -/
def length : Nat := 6

def derive (seed : String) : String :=
  let digest := Sha1.digest (namespaceBytes ++ utf8Bytes seed)
  String.ofList ((digest.flatMap hexPair).take length)

/-- Further attempts are counted in 32 bits, one of them for the sign. -/
def attemptLimit : Nat := Nat.pow 2 31

/-- The seed of a further attempt. -/
def attemptSeed (seed : String) (attempt : Nat) : String :=
  seed ++ ":" ++ toString attempt

/-- The first derived id from attempt `attempt` on that is not taken. -/
def firstFree? (taken : List String) (seed : String) : Nat → Nat → Option String
  | 0, _ => none
  | fuel + 1, attempt =>
    let id := derive (attemptSeed seed attempt)
    if taken.contains id then firstFree? taken seed fuel (attempt + 1) else some id

/-- An id for `seed` that is not taken yet.  There is none when every attempt meets a taken id, and
then the count of the attempts runs out. -/
def fresh? (taken : List String) (seed : String) : Option String :=
  let id := derive seed
  if taken.contains id then firstFree? taken seed (attemptLimit - 1) 1 else some id

end Ident
end Comfort
