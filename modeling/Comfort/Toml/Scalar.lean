import Comfort.Number.Binary64
import Comfort.Toml.Basic

/-!
Values of TOML that are a single token: booleans, numbers, dates and times.

Of floats, dates and times only the form is kept, as nothing here looks at what they say, but a
number that is too great is refused.
-/

namespace Comfort
namespace Toml

def isTokenChar (c : Char) : Bool :=
  c.isAlphanum || c == '+' || c == '-' || c == '.' || c == '_' || c == ':'

/-- Digits with single underscores between them. -/
def isDigits (p : Char → Bool) (cs : List Char) : Bool :=
  cs.head?.any p && cs.getLast?.any p && cs.all (fun c => p c || c == '_') && !doubled cs
where
  doubled : List Char → Bool
    | '_' :: '_' :: _ => true
    | _ :: rest => doubled rest
    | [] => false

def unsigned (cs : List Char) : List Char :=
  match cs with
  | '+' :: rest | '-' :: rest => rest
  | cs => cs

def isWhole (cs : List Char) : Bool :=
  isDigits Char.isDigit cs && (cs.length == 1 || cs.head? != some '0')

def digitValue (c : Char) : Nat :=
  if c.isDigit then c.toNat - '0'.toNat
  else if c.isLower then c.toNat - 'a'.toNat + 10
  else c.toNat - 'A'.toNat + 10

def digitsValue (base : Nat) (cs : List Char) : Nat :=
  (cs.filter (· != '_')).foldl (fun n c => n * base + digitValue c) 0

def isHexDigit (c : Char) : Bool :=
  c.isDigit || ('a' ≤ c && c ≤ 'f') || ('A' ≤ c && c ≤ 'F')

def integer? (cs : List Char) : Option Int :=
  match cs with
  | '0' :: 'x' :: digits => prefixed 16 isHexDigit digits
  | '0' :: 'o' :: digits => prefixed 8 (fun c => '0' ≤ c && c ≤ '7') digits
  | '0' :: 'b' :: digits => prefixed 2 (fun c => c == '0' || c == '1') digits
  | cs =>
    if isWhole (unsigned cs) then
      let n : Int := digitsValue 10 (unsigned cs)
      some (if cs.head? == some '-' then -n else n)
    else none
where
  prefixed (base : Nat) (p : Char → Bool) (digits : List Char) : Option Int :=
    if isDigits p digits then some (digitsValue base digits) else none

/-- Whole numbers go from the least signed to the greatest unsigned one of 128 bits. -/
def isInRange (n : Int) : Bool :=
  -(twoTo 127 : Int) ≤ n && n < twoTo 128

/-- A whole number, then a fraction, an exponent or both, as a significand and a power of ten. -/
def decimal? (cs : List Char) : Option (Nat × Int) :=
  let isExponentMark (c : Char) : Bool := c == 'e' || c == 'E'
  let mantissa := cs.takeWhile fun c => !isExponentMark c
  let exponent := cs.drop mantissa.length
  let whole := mantissa.takeWhile (· != '.')
  let fraction := mantissa.drop whole.length
  let places := fraction.drop 1
  let power := unsigned (exponent.drop 1)
  if isWhole whole
      && (fraction.isEmpty || isDigits Char.isDigit places)
      && (exponent.isEmpty || isDigits Char.isDigit power)
      && !(fraction.isEmpty && exponent.isEmpty) then
    let raised : Int := digitsValue 10 power
    let raised := if (exponent.drop 1).head? == some '-' then -raised else raised
    some (digitsValue 10 (whole ++ places), raised - (places.filter (· != '_')).length)
  else none

def isFloat (cs : List Char) : Bool :=
  let body := unsigned cs
  body == ['i', 'n', 'f'] || body == ['n', 'a', 'n']
    || (decimal? body).any fun (significand, exponent) => Binary64.isWithin significand exponent

/-! ## Dates and times -/

def isNumber (count : Nat) (cs : List Char) : Bool :=
  cs.length == count && cs.all Char.isDigit

def daysInMonth (year month : Nat) : Nat :=
  if month == 2 then
    if year % 4 == 0 && (year % 100 != 0 || year % 400 == 0) then 29 else 28
  else if [4, 6, 9, 11].contains month then 30
  else 31

def isDate : List Char → Bool
  | [y1, y2, y3, y4, '-', m1, m2, '-', d1, d2] =>
    let year := digitsValue 10 [y1, y2, y3, y4]
    let month := digitsValue 10 [m1, m2]
    let day := digitsValue 10 [d1, d2]
    isNumber 8 [y1, y2, y3, y4, m1, m2, d1, d2] && 1 ≤ month && month ≤ 12 && 1 ≤ day
      && day ≤ daysInMonth year month
  | _ => false

/-- Two digits of a value up to `greatest`. -/
def isPair (greatest : Nat) (a b : Char) : Bool :=
  isNumber 2 [a, b] && digitsValue 10 [a, b] ≤ greatest

/-- Seconds go up to 60 and may have a fraction, or may be left out. -/
def isTime : List Char → Bool
  | h1 :: h2 :: ':' :: m1 :: m2 :: rest =>
    isPair 23 h1 h2 && isPair 59 m1 m2 &&
      match rest with
      | [] => true
      | [':', s1, s2] => isPair 60 s1 s2
      | ':' :: s1 :: s2 :: '.' :: fraction =>
        isPair 60 s1 s2 && !fraction.isEmpty && fraction.all Char.isDigit
      | _ => false
  | _ => false

def isOffset : List Char → Bool
  | ['Z'] | ['z'] => true
  | [sign, h1, h2, ':', m1, m2] =>
    (sign == '+' || sign == '-') && isPair 23 h1 h2 && isPair 59 m1 m2
  | _ => false

/-- A time of day, with or without an offset. -/
def isTimeWithOffset (cs : List Char) : Bool :=
  let time := cs.takeWhile fun c => c.isDigit || c == ':' || c == '.'
  let offset := cs.drop time.length
  isTime time && (offset.isEmpty || isOffset offset)

def isDateTime (cs : List Char) : Bool :=
  match cs.drop 10 with
  | [] => isDate cs
  | mark :: time =>
    isDate (cs.take 10) && (mark == 'T' || mark == 't' || mark == ' ') && isTimeWithOffset time

/-! ## Tokens -/

/-- The token at the head of a text.  A blank between a date and a time is part of the token. -/
def token (cs : List Char) : List Char :=
  let first := cs.takeWhile isTokenChar
  match cs.drop first.length with
  | ' ' :: d :: rest =>
    if isDate first && d.isDigit then first ++ ' ' :: (d :: rest).takeWhile isTokenChar else first
  | _ => first

def scalar? (cs : List Char) : Option Value :=
  if cs == ['t', 'r', 'u', 'e'] then some (.boolean true)
  else if cs == ['f', 'a', 'l', 's', 'e'] then some (.boolean false)
  else
    match integer? cs with
    | some n => if isInRange n then some (.integer n) else none
    | none =>
      if isFloat cs then some .float
      else if isDateTime cs || isTime cs then some .dateTime
      else none

end Toml
end Comfort
