/-!
The smallest pieces of a TOML text: blanks, comments, line ends, strings and keys.
-/

namespace Comfort
namespace Toml

def isSpace (c : Char) : Bool :=
  c == ' ' || c == '\t'

def skipSpace (cs : List Char) : List Char :=
  cs.dropWhile isSpace

/-- Control characters other than the tab stand nowhere, not even in a comment. -/
def isPlain (c : Char) : Bool :=
  c == '\t' || (0x20 ≤ c.toNat && c.toNat != 0x7F)

def newline? : List Char → Option (List Char)
  | '\n' :: rest => some rest
  | '\r' :: '\n' :: rest => some rest
  | _ => none

/-- Skip a comment, if one begins here.  A comment goes on to the end of its line. -/
def skipComment? : List Char → Option (List Char)
  | '#' :: cs =>
    let comment := cs.takeWhile fun c => c != '\n' && c != '\r'
    if comment.all isPlain then some (cs.drop comment.length) else none
  | cs => some cs

/-- What may follow on the line of an expression: blanks, a comment, and the end of the line. -/
def endLine? (cs : List Char) : Option (List Char) := do
  let cs ← skipComment? (skipSpace cs)
  if cs.isEmpty then some [] else newline? cs

/-- Skip blanks, comments and line ends. -/
def skipTrivia? : Nat → List Char → Option (List Char)
  | 0, _ => none
  | fuel + 1, cs => do
    let cs ← skipComment? (skipSpace cs)
    match newline? cs with
    | some rest => skipTrivia? fuel rest
    | none => some cs

/-! ## Strings -/

def hexValue? (c : Char) : Option Nat :=
  if c.isDigit then some (c.toNat - '0'.toNat)
  else if 'a' ≤ c && c ≤ 'f' then some (c.toNat - 'a'.toNat + 10)
  else if 'A' ≤ c && c ≤ 'F' then some (c.toNat - 'A'.toNat + 10)
  else none

/-- The character whose code point has exactly these hexadecimal digits. -/
def codePoint? (digits : List Char) : Option Char := do
  let values ← digits.mapM hexValue?
  let n := values.foldl (fun n d => n * 16 + d) 0
  if n.isValidChar then some (Char.ofNat n) else none

def escape? : List Char → Option (Char × List Char)
  | 'b' :: rest => some (Char.ofNat 0x08, rest)
  | 't' :: rest => some ('\t', rest)
  | 'n' :: rest => some ('\n', rest)
  | 'f' :: rest => some (Char.ofNat 0x0C, rest)
  | 'r' :: rest => some ('\r', rest)
  | 'e' :: rest => some (Char.ofNat 0x1B, rest)
  | '"' :: rest => some ('"', rest)
  | '\\' :: rest => some ('\\', rest)
  | 'x' :: rest => numbered 2 rest
  | 'u' :: rest => numbered 4 rest
  | 'U' :: rest => numbered 8 rest
  | _ => none
where
  numbered (count : Nat) (cs : List Char) : Option (Char × List Char) :=
    if cs.length < count then none
    else (codePoint? (cs.take count)).map fun c => (c, cs.drop count)

/-- The rest of a basic string, up to its closing quote. -/
def basic? : Nat → List Char → Option (List Char × List Char)
  | 0, _ => none
  | fuel + 1, cs =>
    match cs with
    | [] => none
    | '"' :: rest => some ([], rest)
    | '\\' :: rest => do
      let (c, rest) ← escape? rest
      let (s, rest) ← basic? fuel rest
      some (c :: s, rest)
    | c :: rest =>
      if isPlain c then (basic? fuel rest).map fun (s, rest) => (c :: s, rest) else none

/-- The rest of a literal string, in which nothing is escaped. -/
def literal? (cs : List Char) : Option (List Char × List Char) :=
  let s := cs.takeWhile fun c => c != '\'' && isPlain c
  match cs.drop s.length with
  | '\'' :: rest => some (s, rest)
  | _ => none

/-- How many of the quotes that end a string of several lines belong to it. -/
def closingQuotes (quote : Char) (cs : List Char) : Nat :=
  min 2 (cs.takeWhile (· == quote)).length

/-- Skip blanks and line ends after a backslash that ends a line. -/
def skipFolded : List Char → List Char
  | '\r' :: '\n' :: rest => skipFolded rest
  | c :: rest => if isSpace c || c == '\n' then skipFolded rest else c :: rest
  | [] => []

def longBasic? : Nat → List Char → Option (List Char × List Char)
  | 0, _ => none
  | fuel + 1, cs =>
    match cs with
    | [] => none
    | '"' :: '"' :: '"' :: rest =>
      let n := closingQuotes '"' rest
      some (rest.take n, rest.drop n)
    | '\\' :: rest =>
      match newline? (skipSpace rest) with
      | some rest => longBasic? fuel (skipFolded rest)
      | none => do
        let (c, rest) ← escape? rest
        let (s, rest) ← longBasic? fuel rest
        some (c :: s, rest)
    | '\r' :: '\n' :: rest => (longBasic? fuel rest).map fun (s, rest) => ('\r' :: '\n' :: s, rest)
    | c :: rest =>
      if isPlain c || c == '\n' then (longBasic? fuel rest).map fun (s, rest) => (c :: s, rest)
      else none

def longLiteral? : List Char → Option (List Char × List Char)
  | [] => none
  | '\'' :: '\'' :: '\'' :: rest =>
    let n := closingQuotes '\'' rest
    some (rest.take n, rest.drop n)
  | '\r' :: '\n' :: rest => (longLiteral? rest).map fun (s, rest) => ('\r' :: '\n' :: s, rest)
  | c :: rest =>
    if isPlain c || c == '\n' then (longLiteral? rest).map fun (s, rest) => (c :: s, rest)
    else none

/-- A line end right after the opening quotes is no part of the string. -/
def dropNewline (cs : List Char) : List Char :=
  (newline? cs).getD cs

def string? : List Char → Option (List Char × List Char)
  | '"' :: '"' :: '"' :: rest => longBasic? (rest.length + 1) (dropNewline rest)
  | '\'' :: '\'' :: '\'' :: rest => longLiteral? (dropNewline rest)
  | '"' :: rest => basic? (rest.length + 1) rest
  | '\'' :: rest => literal? rest
  | _ => none

/-! ## Keys -/

def isBareKeyChar (c : Char) : Bool :=
  c.isAlphanum || c == '_' || c == '-'

def simpleKey? : List Char → Option (String × List Char)
  | '"' :: rest => (basic? (rest.length + 1) rest).map fun (s, rest) => (String.ofList s, rest)
  | '\'' :: rest => (literal? rest).map fun (s, rest) => (String.ofList s, rest)
  | cs =>
    let key := cs.takeWhile isBareKeyChar
    if key.isEmpty then none else some (String.ofList key, cs.drop key.length)

/-- The greatest number of keys that dots may join, and the greatest depth of the brackets and
braces of a value. -/
def greatestDepth : Nat := 80

/-- At most `room` keys divided by dots, with blanks around them. -/
def keys? : Nat → List Char → Option (List String × List Char)
  | 0, _ => none
  | room + 1, cs => do
    let (first, rest) ← simpleKey? (skipSpace cs)
    match skipSpace rest with
    | '.' :: rest => (keys? room rest).map fun (more, rest) => (first :: more, rest)
    | rest => some ([first], rest)

def key? (cs : List Char) : Option (List String × List Char) :=
  keys? greatestDepth cs

end Toml
end Comfort
