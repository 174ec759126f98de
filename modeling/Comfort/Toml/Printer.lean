/-!
Writing strings and lists in TOML.

A string is written in the plainest form that can hold it: between double quotes if it has no quotes
and backslashes to escape, else between single quotes, else over several lines.  Only a string that
no other form can hold has them escaped.  A tab does not count for the choice, but it is escaped
wherever there are escapes, that is, between double quotes.
-/

namespace Comfort
namespace Toml

def longestRun (quote : Char) (cs : List Char) : Nat :=
  (cs.foldl (fun (longest, run) c =>
    if c == quote then (max longest (run + 1), run + 1) else (longest, 0)) (0, 0)).1

/-- Control characters that only an escape can stand for. -/
def isControl (c : Char) : Bool :=
  (c.toNat < 0x20 && c != '\t' && c != '\n') || c.toNat == 0x7F

def hexDigits (n : Nat) : List Char :=
  ['0', '0', (Nat.digitChar (n / 16)).toUpper, (Nat.digitChar (n % 16)).toUpper]

def escapeChar (c : Char) : List Char :=
  if c == '\\' then ['\\', '\\']
  else if c == '\t' then ['\\', 't']
  else if c == '\r' then ['\\', 'r']
  else if c.toNat == 0x08 then ['\\', 'b']
  else if c.toNat == 0x0C then ['\\', 'f']
  else if isControl c then '\\' :: 'u' :: hexDigits c.toNat
  else [c]

/-- The escaped text of a string on one line. -/
def escapeBasic (cs : List Char) : List Char :=
  cs.flatMap fun c =>
    if c == '"' then ['\\', '"'] else if c == '\n' then ['\\', 'n'] else escapeChar c

/-- The escaped text of a string of several lines, in which `run` quotes have just been written.  A
third quote in a row would end the string. -/
def escapeLong (run : Nat) : List Char → List Char
  | [] => []
  | c :: cs =>
    if c == '"' then
      if run < 2 then '"' :: escapeLong (run + 1) cs else '\\' :: '"' :: escapeLong 0 cs
    else escapeChar c ++ escapeLong 0 cs

/-- A string of several lines begins on a line of its own. -/
def enclose (quotes : List Char) (newlines : Bool) (body : List Char) : List Char :=
  quotes ++ (if newlines then ['\n'] else []) ++ body ++ quotes

def stringText (cs : List Char) : List Char :=
  let controls := cs.any isControl
  let newlines := cs.contains '\n'
  let backslashes := cs.contains '\\'
  let doubles := longestRun '"' cs
  let singles := longestRun '\'' cs
  let basic := enclose ['"'] false (escapeBasic cs)
  let literal := enclose ['\''] false cs
  let longBasic := enclose ['"', '"', '"'] newlines (escapeLong 0 cs)
  let longLiteral := enclose ['\'', '\'', '\''] newlines cs
  if !controls && !newlines && !backslashes && doubles == 0 then basic
  else if !controls && !newlines && singles == 0 then literal
  else if !controls && !backslashes && doubles ≤ 2 then longBasic
  else if !controls && singles ≤ 2 then longLiteral
  else if newlines then longBasic
  else basic

/-- A list of several strings has a line for each of them. -/
def stringsText : List (List Char) → List Char
  | [] => ['[', ']']
  | [s] => '[' :: stringText s ++ [']']
  | ss =>
    let line (s : List Char) : List Char := List.replicate 4 ' ' ++ stringText s ++ [',', '\n']
    '[' :: '\n' :: ss.flatMap line ++ [']']

def setting (key : String) (value : List Char) : List Char :=
  key.toList ++ [' ', '=', ' '] ++ value ++ ['\n']

end Toml
end Comfort
