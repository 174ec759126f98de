import Comfort.Text.Alphabetic
import Comfort.Text.Numeric

/-!
Variables and the home directory in paths.

Variables are put in for their names first, and what comes out of a variable is not looked at again.
A tilde in front of the text then stands for the home directory.
-/

namespace Comfort

/-- The names that are set, with their values. -/
structure Environment where
  bindings : List (String × String)

namespace Environment

/-- The part of a name that can be set. -/
def setName (name : String) : String :=
  String.ofList (name.toList.takeWhile (· != '='))

/-- What follows `name` and an equals sign in the list of the texts `NAME=VALUE`.  A name may itself
have an equals sign, and then it reaches into the value. -/
def lookup? (env : Environment) (name : String) : Option String := do
  let value ← env.bindings.lookup (setName name)
  let text := setName name ++ "=" ++ value
  let rest ← List.isPrefixOf? (name ++ "=").toList text.toList
  return String.ofList rest

/-- The home directory.  An empty one counts for none. -/
def home? (env : Environment) : Option String :=
  (env.lookup? "HOME").filter fun home => home != ""

end Environment

namespace Expand

def isNameChar (c : Char) : Bool :=
  Text.isAlphabetic c || Text.isNumeric c || c == '_'

/-- The name and the default in what stands between braces.  A default needs a name in front of
it. -/
def splitDefault (before : List Char) : List Char → List Char × Option (List Char)
  | [] => (before.reverse, none)
  | ':' :: '-' :: rest =>
    if before.isEmpty then (':' :: '-' :: rest, none) else (before.reverse, some rest)
  | c :: rest => splitDefault (c :: before) rest

/-- The names that stand behind the dollar signs of a text.  No other variables count for its
expansion. -/
def names : List Char → List String
  | '$' :: '\x7b' :: rest =>
    String.ofList (splitDefault [] (rest.takeWhile (· != '\x7d'))).1 :: names rest
  | '$' :: rest => String.ofList (rest.takeWhile isNameChar) :: names rest
  | _ :: rest => names rest
  | [] => []

/-- Put in the values of variables.  An unset variable without a default makes the whole fail. -/
def substitute? (env : Environment) : Nat → List Char → Option (List Char)
  | 0, _ => none
  | _, [] => some []
  | fuel + 1, '$' :: rest =>
    match rest with
    | '\x7b' :: inner =>
      let body := inner.takeWhile (· != '\x7d')
      match inner.drop body.length with
      | [] => (substitute? env fuel inner).map fun out => '$' :: '\x7b' :: out
      | _ :: rest =>
        let (name, default) := splitDefault [] body
        match env.lookup? (String.ofList name), default with
        | some value, _ => (substitute? env fuel rest).map (value.toList ++ ·)
        | none, some default => (substitute? env fuel rest).map (default ++ ·)
        | none, none => none
    | '$' :: rest => (substitute? env fuel rest).map ('$' :: ·)
    | rest =>
      let name := rest.takeWhile isNameChar
      if name.isEmpty then (substitute? env fuel rest).map ('$' :: ·)
      else
        match env.lookup? (String.ofList name) with
        | some value => (substitute? env fuel (rest.drop name.length)).map (value.toList ++ ·)
        | none => none
  | fuel + 1, c :: rest => (substitute? env fuel rest).map (c :: ·)

/-- Put in the home directory for a tilde that is the whole text or stands before a slash. -/
def tilde (env : Environment) (cs : List Char) : List Char :=
  match cs, env.home? with
  | ['~'], some home => home.toList
  | '~' :: '/' :: rest, some home => home.toList ++ '/' :: rest
  | cs, _ => cs

/-- A tilde that comes out of a variable stays. -/
def path? (env : Environment) (path : String) : Option String := do
  let cs := path.toList
  let expanded ← substitute? env (cs.length + 1) cs
  let fromVariable := cs.head? != some '~' && expanded.head? == some '~'
  return String.ofList (if fromVariable then expanded else tilde env expanded)

end Expand
end Comfort
