import Comfort.Number.Binary64

/-!
Numbers written in decimal.
-/

namespace Comfort

def natText (n : Nat) : List Char :=
  Nat.toDigits 10 n

def intText : Int → List Char
  | .ofNat n => natText n
  | .negSucc n => '-' :: natText (n + 1)

namespace Binary64

/-- Drop the zeros that end `digits`, raising the power of ten instead. -/
def dropZeros : Nat → Nat × Int → Nat × Int
  | 0, d => d
  | fuel + 1, (digits, power) =>
    if digits != 0 && digits % 10 == 0 then dropZeros fuel (digits / 10, power + 1)
    else (digits, power)

/-- Positional notation serves values from `1e-5` up to, but not including, `1e16`, and keeps at
least one digit on each side of the point.  Other values are written with an exponent that has a
sign. -/
def text (f : Binary64) : List Char :=
  let (digits, power) := dropZeros 400 f.shortest
  let ds := natText digits
  let point := (ds.length : Int) + power
  let body :=
    if f.isZero then ['0', '.', '0']
    else if 0 ≤ power && point ≤ 16 then
      ds ++ List.replicate power.toNat '0' ++ ['.', '0']
    else if 0 < point && point ≤ 16 then
      ds.take point.toNat ++ ['.'] ++ ds.drop point.toNat
    else if -5 < point && point ≤ 0 then
      ['0', '.'] ++ List.replicate (-point).toNat '0' ++ ds
    else
      let fraction := if ds.length == 1 then [] else '.' :: ds.drop 1
      let sign := if 1 ≤ point then ['+'] else []
      ds.take 1 ++ fraction ++ ['e'] ++ sign ++ intText (point - 1)
  if f.negative then '-' :: body else body

end Binary64
end Comfort
