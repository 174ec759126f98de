/-!
The SHA-1 digest.

A message is padded to whole blocks of 64 bytes.  Each block is spread over eighty words, which turn
the five words of the state one after the other.
-/

namespace Comfort
namespace Sha1

structure State where
  a : UInt32
  b : UInt32
  c : UInt32
  d : UInt32
  e : UInt32

def initial : State :=
  { a := 0x67452301, b := 0xEFCDAB89, c := 0x98BADCFE, d := 0x10325476, e := 0xC3D2E1F0 }

def rotateLeft (x n : UInt32) : UInt32 :=
  (x <<< n) ||| (x >>> (32 - n))

/-- The `count` lowest bytes of `n`, the highest of them first. -/
def bigEndian : Nat → Nat → List UInt8
  | 0, _ => []
  | count + 1, n => UInt8.ofNat (n / Nat.pow 256 count) :: bigEndian count n

/-- A one bit, zeros, and the length in bits end the last block. -/
def pad (message : List UInt8) : List UInt8 :=
  let zeros := (119 - message.length % 64) % 64
  message ++ 0x80 :: List.replicate zeros 0 ++ bigEndian 8 (8 * message.length)

def word (b0 b1 b2 b3 : UInt8) : UInt32 :=
  (b0.toUInt32 <<< 24) ||| (b1.toUInt32 <<< 16) ||| (b2.toUInt32 <<< 8) ||| b3.toUInt32

def words : List UInt8 → List UInt32
  | b0 :: b1 :: b2 :: b3 :: rest => word b0 b1 b2 b3 :: words rest
  | _ => []

/-- Append `count` words, each made from four of the words before it. -/
def spread : Nat → Array UInt32 → Array UInt32
  | 0, ws => ws
  | count + 1, ws =>
    let n := ws.size
    let word (back : Nat) : UInt32 := ws.getD (n - back) 0
    let mixed := word 3 ^^^ word 8 ^^^ word 14 ^^^ word 16
    spread count (ws.push (rotateLeft mixed 1))

/-- The function and the constant of step `i`. -/
def mix (i : Nat) (s : State) : UInt32 × UInt32 :=
  if i < 20 then ((s.b &&& s.c) ||| (~~~s.b &&& s.d), 0x5A827999)
  else if i < 40 then (s.b ^^^ s.c ^^^ s.d, 0x6ED9EBA1)
  else if i < 60 then ((s.b &&& s.c) ||| (s.b &&& s.d) ||| (s.c &&& s.d), 0x8F1BBCDC)
  else (s.b ^^^ s.c ^^^ s.d, 0xCA62C1D6)

def turn (s : State) (i : Nat) (w : UInt32) : State :=
  let (f, k) := mix i s
  { a := rotateLeft s.a 5 + f + s.e + k + w, b := s.a, c := rotateLeft s.b 30, d := s.c, e := s.d }

def turns (s : State) (i : Nat) : List UInt32 → State
  | [] => s
  | w :: ws => turns (turn s i w) (i + 1) ws

/-- Work one block of sixteen words into the state. -/
def absorb (s : State) (block : List UInt32) : State :=
  let t := turns s 0 (spread 64 block.toArray).toList
  { a := s.a + t.a, b := s.b + t.b, c := s.c + t.c, d := s.d + t.d, e := s.e + t.e }

def absorbAll : Nat → State → List UInt32 → State
  | 0, s, _ => s
  | count + 1, s, ws => absorbAll count (absorb s (ws.take 16)) (ws.drop 16)

def digest (message : List UInt8) : List UInt8 :=
  let ws := words (pad message)
  let s := absorbAll (ws.length / 16) initial ws
  [s.a, s.b, s.c, s.d, s.e].flatMap fun w => bigEndian 4 w.toNat

end Sha1
end Comfort
