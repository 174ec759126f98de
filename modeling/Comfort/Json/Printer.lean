import Comfort.Json.Basic
import Comfort.Number.Text

/-!
Writing JSON.

The pretty form indents by two blanks a level and closes an empty array or object at once; the
compact form has no blanks at all.  Only quotes, backslashes and control characters are escaped.
-/

namespace Comfort

def JsonNumber.text : JsonNumber → List Char
  | whole n => intText n
  | float f => f.text

namespace Json

def hexDigit (n : Nat) : Char :=
  Nat.digitChar n

/-- Control characters without a short escape are written with four hexadecimal digits. -/
def escapeChar (c : Char) : List Char :=
  if c == '"' then ['\\', '"']
  else if c == '\\' then ['\\', '\\']
  else if c == '\n' then ['\\', 'n']
  else if c == '\r' then ['\\', 'r']
  else if c == '\t' then ['\\', 't']
  else if c.toNat == 0x08 then ['\\', 'b']
  else if c.toNat == 0x0C then ['\\', 'f']
  else if c.toNat < 0x20 then
    ['\\', 'u', '0', '0', hexDigit (c.toNat / 16), hexDigit (c.toNat % 16)]
  else [c]

def quoted (s : String) : List Char :=
  '"' :: (s.toList.flatMap escapeChar ++ ['"'])

/-! ## The pretty form -/

/-- The start of a line at nesting level `level`. -/
def newLine (level : Nat) : List Char :=
  '\n' :: List.replicate (2 * level) ' '

mutual

def prettyAt (level : Nat) : Json → List Char
  | null => ['n', 'u', 'l', 'l']
  | bool true => ['t', 'r', 'u', 'e']
  | bool false => ['f', 'a', 'l', 's', 'e']
  | num n => n.text
  | str s => quoted s
  | arr [] => ['[', ']']
  | arr (j :: rest) =>
    '[' :: newLine (level + 1) ++ prettyAt (level + 1) j ++ prettyItems (level + 1) rest
      ++ newLine level ++ [']']
  | obj [] => ['\x7b', '\x7d']
  | obj ((key, j) :: rest) =>
    '\x7b' :: newLine (level + 1) ++ quoted key ++ [':', ' '] ++ prettyAt (level + 1) j
      ++ prettyFields (level + 1) rest ++ newLine level ++ ['\x7d']
termination_by structural j => j

def prettyItems (level : Nat) : List Json → List Char
  | [] => []
  | j :: rest => ',' :: newLine level ++ prettyAt level j ++ prettyItems level rest
termination_by structural j => j

def prettyFields (level : Nat) : List (String × Json) → List Char
  | [] => []
  | (key, j) :: rest =>
    ',' :: newLine level ++ quoted key ++ [':', ' '] ++ prettyAt level j ++ prettyFields level rest
termination_by structural j => j

end

def pretty (j : Json) : String :=
  String.ofList (prettyAt 0 j)

/-! ## The compact form -/

mutual

def compactChars : Json → List Char
  | null => ['n', 'u', 'l', 'l']
  | bool true => ['t', 'r', 'u', 'e']
  | bool false => ['f', 'a', 'l', 's', 'e']
  | num n => n.text
  | str s => quoted s
  | arr [] => ['[', ']']
  | arr (j :: rest) => '[' :: compactChars j ++ compactItems rest ++ [']']
  | obj [] => ['\x7b', '\x7d']
  | obj ((key, j) :: rest) =>
    '\x7b' :: quoted key ++ [':'] ++ compactChars j ++ compactFields rest ++ ['\x7d']
termination_by structural j => j

def compactItems : List Json → List Char
  | [] => []
  | j :: rest => ',' :: compactChars j ++ compactItems rest
termination_by structural j => j

def compactFields : List (String × Json) → List Char
  | [] => []
  | (key, j) :: rest => ',' :: quoted key ++ [':'] ++ compactChars j ++ compactFields rest
termination_by structural j => j

end

def compact (j : Json) : String :=
  String.ofList (compactChars j)

end Json
end Comfort
