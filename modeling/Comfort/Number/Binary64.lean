/-!
Binary floating point numbers of 64 bits.

A value is a mantissa below two to the 53 and a power of two.  `nearest?` rounds a ratio of natural
numbers to the closest value, an exact half going to the even mantissa, and `shortest` finds the
fewest decimal digits that lie closer to the value than to any other.
-/

namespace Comfort

def twoTo (n : Nat) : Nat :=
  Nat.pow 2 n

def tenTo (n : Nat) : Nat :=
  Nat.pow 10 n

/-- The number `mantissa * 2 ^ exponent`, with its sign apart so that zero has two forms. -/
structure Binary64 where
  negative : Bool
  mantissa : Nat
  exponent : Int
  deriving DecidableEq

namespace Binary64

def mantissaBits : Nat := 52

/-- Values below the normal ones share this exponent. -/
def leastExponent : Int := -1074

def greatestExponent : Int := 971

def zero (negative : Bool) : Binary64 :=
  { negative := negative, mantissa := 0, exponent := leastExponent }

def isZero (f : Binary64) : Bool :=
  f.mantissa == 0

/-- `num / den` divided by two to the `e`, as a ratio. -/
def unscale (num den : Nat) (e : Int) : Nat × Nat :=
  (num * twoTo (-e).toNat, den * twoTo e.toNat)

/-- The power of two at which `num / den` has a mantissa of 53 bits, or the least one. -/
def exponentOf (num den : Nat) : Int :=
  let guess : Int := (num.log2 : Int) - den.log2 - mantissaBits
  let (a, b) := unscale num den guess
  max (if a < twoTo mantissaBits * b then guess - 1 else guess) leastExponent

/-- The value closest to `num / den`, or nothing when that is beyond the greatest one. -/
def nearest? (negative : Bool) (num den : Nat) : Option Binary64 :=
  if num == 0 then some (zero negative)
  else
    let e := exponentOf num den
    let (a, b) := unscale num den e
    let q := a / b
    let r := a % b
    let m := if b < 2 * r || (2 * r == b && q % 2 == 1) then q + 1 else q
    let (m, e) := if m == twoTo (mantissaBits + 1) then (twoTo mantissaBits, e + 1) else (m, e)
    if greatestExponent < e then none
    else some { negative := negative, mantissa := m, exponent := e }

def numerator (f : Binary64) : Nat :=
  f.mantissa * twoTo f.exponent.toNat

def denominator (f : Binary64) : Nat :=
  twoTo (-f.exponent).toNat

def powerOfTen? (n : Nat) : Option Binary64 :=
  nearest? false (tenTo n) 1

def mul? (f g : Binary64) : Option Binary64 :=
  nearest? (f.negative != g.negative) (f.numerator * g.numerator) (f.denominator * g.denominator)

/-- The quotient, rounded.  Division by zero gives nothing. -/
def div? (f g : Binary64) : Option Binary64 :=
  if g.isZero then none
  else nearest? (f.negative != g.negative) (f.numerator * g.denominator)
    (f.denominator * g.numerator)

def greatestPowerOfTen : Nat := 308

/-- Divide by ten to the `n`, in steps of the greatest power of ten.  Once the value is zero it
stays zero. -/
def divPowerOfTen? (f : Binary64) (n : Nat) : Option Binary64 :=
  if n ≤ greatestPowerOfTen then powerOfTen? n >>= f.div?
  else if f.isZero then some f
  else do
    let power ← powerOfTen? greatestPowerOfTen
    let quotient ← f.div? power
    quotient.divPowerOfTen? (n - greatestPowerOfTen)
termination_by n
decreasing_by simp only [greatestPowerOfTen] at *; omega

/-- The value read from `significand * 10 ^ exponent`.  The significand is rounded first and then
scaled, and each step rounds.  Nothing is read when the value is too great. -/
def ofDecimal? (negative : Bool) (significand : Nat) (exponent : Int) : Option Binary64 := do
  let f ← nearest? negative significand 1
  if exponent < 0 then f.divPowerOfTen? (-exponent).toNat
  else if exponent.toNat ≤ greatestPowerOfTen then powerOfTen? exponent.toNat >>= f.mul?
  else if f.isZero then some f
  else none

/-- Whether the value closest to `significand * 10 ^ exponent` is within the greatest one.  Far from
that limit the place of the first digit decides, so that no huge power is taken. -/
def isWithin (significand : Nat) (exponent : Int) : Bool :=
  let point := ((Nat.toDigits 10 significand).length : Int) + exponent
  if significand == 0 || point ≤ greatestPowerOfTen then true
  else if greatestPowerOfTen + 1 < point then false
  else
    (nearest? false (significand * tenTo exponent.toNat) (tenTo (-exponent).toNat)).isSome

/-! ## Decimal digits -/

def ratioLt (a b c d : Nat) : Bool :=
  a * d < c * b

/-- Four times the mantissa, and the same for the two points half way to the neighbouring values.
The gap below a power of two is half as wide as the one above it. -/
def quarters (f : Binary64) : Nat × Nat × Nat :=
  let m := 4 * f.mantissa
  let below := if f.mantissa == twoTo mantissaBits && leastExponent < f.exponent then 1 else 2
  (m - below, m, m + 2)

/-- Whether `digits * 10 ^ power` is read back as `f`. -/
def readsBack (f : Binary64) (digits : Nat) (power : Int) : Bool :=
  let (low, _, high) := f.quarters
  let scale (q : Nat) : Nat × Nat :=
    (q * twoTo (f.exponent - 2).toNat, twoTo (2 - f.exponent).toNat)
  let (a, b) := (digits * tenTo power.toNat, tenTo (-power).toNat)
  let (l, ld) := scale low
  let (h, hd) := scale high
  if f.mantissa % 2 == 0 then !ratioLt a b l ld && !ratioLt h hd a b
  else ratioLt l ld a b && ratioLt a b h hd

/-- The largest `k` with `10 ^ k ≤ num / den`, searched for downwards from `k`. -/
def decimalExponent (num den : Nat) : Nat → Int → Int
  | 0, k => k
  | fuel + 1, k =>
    if ratioLt num den (tenTo k.toNat) (tenTo (-k).toNat) then decimalExponent num den fuel (k - 1)
    else k

/-- Of the two neighbours of the value among the multiples of `10 ^ power`, the nearer one that
reads back.  A tie goes to the even neighbour. -/
def candidate? (f : Binary64) (power : Int) : Option Nat :=
  let a := f.numerator * tenTo (-power).toNat
  let b := f.denominator * tenTo power.toNat
  let q := a / b
  let r := a % b
  let nearer := if b < 2 * r || (2 * r == b && q % 2 == 1) then q + 1 else q
  let other := if nearer == q then q + 1 else q
  if f.readsBack nearer power then some nearer
  else if f.readsBack other power then some other
  else none

def shortestFrom (f : Binary64) : Nat → Int → Nat × Int
  | 0, power => (f.numerator * tenTo (-power).toNat / (f.denominator * tenTo power.toNat), power)
  | fuel + 1, power =>
    match f.candidate? power with
    | some digits => (digits, power)
    | none => shortestFrom f fuel (power - 1)

/-- Seventeen digits always suffice. -/
def shortest (f : Binary64) : Nat × Int :=
  if f.isZero then (0, 0)
  else
    let top := decimalExponent f.numerator f.denominator 640 309
    shortestFrom f 17 top

end Binary64
end Comfort
