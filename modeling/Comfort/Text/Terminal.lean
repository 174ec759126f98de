/-!
Text for a terminal, made plain.

A terminal takes some characters for commands: control characters, and sequences that begin with an
escape character.  `plain` leaves them out, all but the blanks among the control characters.  Where
a blank within a sequence is kept, what follows it is text again, up to the next character that is
left out: from there the sequence goes on.
-/

namespace Comfort
namespace Text
namespace Terminal

/-- What a character is part of. -/
inductive State where
  | text
  /-- After an escape character. -/
  | escape
  /-- In an escape sequence that ends with its first character from `0` on. -/
  | intermediate
  /-- In a control sequence, which ends with its first character from `@` on. -/
  | control
  /-- At the start of a device control string. -/
  | device
  | deviceParameter
  | deviceIntermediate
  /-- In a string that goes on to the byte `0x9C`, which may stand within a character. -/
  | string
  /-- In an operating system command, which ends with a bell. -/
  | command
  deriving DecidableEq

namespace State

def isBetween (lo hi : Nat) (c : Char) : Bool :=
  lo ≤ c.toNat && c.toNat ≤ hi

def afterEscape (c : Char) : State :=
  if c = '[' then control
  else if c = ']' then command
  else if c = 'P' then device
  else if c = 'X' ∨ c = '^' ∨ c = '_' then string
  else if isBetween 0x20 0x2F c then intermediate
  else if isBetween 0x30 0x7E c then text
  else escape

/-- The state after a character that is left out.  An escape character begins a new sequence in any
state, and the characters for cancelling and substituting end the current one. -/
def next (s : State) (c : Char) : State :=
  if c.toNat = 0x1B then escape
  else if c.toNat = 0x18 ∨ c.toNat = 0x1A then text
  else
    match s with
    | text => text
    | escape => afterEscape c
    | intermediate => if isBetween 0x30 0x7E c then text else intermediate
    | control => if isBetween 0x40 0x7E c then text else control
    | device =>
      if isBetween 0x20 0x2F c then deviceIntermediate
      else if isBetween 0x30 0x3F c then deviceParameter
      else if isBetween 0x40 0x7E c then string
      else device
    | deviceParameter =>
      if isBetween 0x20 0x2F c then deviceIntermediate
      else if isBetween 0x3C 0x7E c then string
      else deviceParameter
    | deviceIntermediate => if isBetween 0x30 0x7E c then string else deviceIntermediate
    | string => if (String.utf8EncodeChar c).contains 0x9C then text else string
    | command => if c.toNat = 0x07 then text else command

/-- The blanks that a terminal carries out as commands. -/
def isBlankCommand (c : Char) : Bool :=
  c == '\t' || c == '\n' || c.toNat == 0x0C || c == '\r'

def keeps (s : State) (c : Char) : Bool :=
  match s with
  | text => isBlankCommand c || (0x20 ≤ c.toNat && c.toNat != 0x7F)
  | escape | intermediate | control => isBlankCommand c
  | _ => false

end State

/-- After a character that was kept, the next one is looked at as text.  If it is left out, `s` is
what it goes on from. -/
def plainFrom (kept : Bool) (s : State) : List Char → List Char
  | [] => []
  | c :: cs =>
    if (if kept then State.text else s).keeps c then
      c :: plainFrom true (if c.toNat < 0x80 then s else .text) cs
    else plainFrom false (s.next c) cs

def plain (cs : List Char) : List Char :=
  plainFrom false .text cs

end Terminal
end Text
end Comfort
