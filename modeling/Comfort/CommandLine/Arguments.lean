/-!
The arguments of the command line.

Arguments are read from left to right, and the first one that is wrong ends the reading.  What is
missing is noticed at the end.  The option that names the store may stand before or after the
command, and the one after it wins.
-/

namespace Comfort
namespace CommandLine

inductive Command where
  /-- Print the report of a document. -/
  | parse (file : String) (noSpelling : Bool)
  /-- Commit a document into a mote. -/
  | commit (file mote : String)
  /-- List the allowed speakers. -/
  | speakers
  deriving DecidableEq

inductive Request where
  | run (store : Option String) (command : Command)
  | help
  | version
  deriving DecidableEq

inductive CommandName where
  | parse
  | commit
  | speakers
  deriving DecidableEq

namespace CommandName

def ofText? (text : String) : Option CommandName :=
  if text = "parse" then some parse
  else if text = "commit" then some commit
  else if text = "speakers" then some speakers
  else none

def takesFile : CommandName → Bool
  | speakers => false
  | _ => true

end CommandName

structure Given where
  store : Option String := none
  file : Option String := none
  mote : Option String := none
  noSpelling : Bool := false

/-- Set what may be given only once. -/
def once (old : Option String) (value : String) : Option (Option String) :=
  if old.isSome then none else some (some value)

/-- A path is not empty. -/
def pathValue? (value : String) : Option String :=
  if value = "" then none else some value

/-- An argument that begins with a dash is no value, unless it is the dash alone. -/
def isValue (arg : String) : Bool :=
  arg = "-" || arg.toList.head? != some '-'

/-- The value in an argument of the form `--name=value`. -/
def attached? (name arg : String) : Option String :=
  let start := name.toList ++ ['=']
  if start.isPrefixOf arg.toList then some (String.ofList (arg.toList.drop start.length)) else none

/-- The value of an option that begins at the head of the arguments, and the arguments after it. -/
def optionValue? (name : String) : List String → Option (Option String × List String)
  | arg :: rest =>
    if arg = name then
      match rest with
      | value :: rest => some (if isValue value then some value else none, rest)
      | [] => some (none, [])
    else (attached? name arg).map fun value => (some value, rest)
  | [] => none

def setFile (name : CommandName) (given : Given) (arg : String) : Option Given := do
  if !name.takesFile then none
  return { given with file := ← once given.file (← pathValue? arg) }

/-- Arguments after a double dash are values, whatever they look like. -/
def readValues (name : CommandName) : Given → List String → Option Given
  | given, [] => some given
  | given, arg :: rest => do
    let given ← setFile name given arg
    readValues name given rest

/-- The end of a reading: a request for help, or what was given. -/
inductive Reading where
  | help
  | given (g : Given)

def readCommand (name : CommandName) : Nat → Given → List String → Option Reading
  | _, given, [] => some (.given given)
  | 0, _, _ => none
  | fuel + 1, given, arg :: rest =>
    if arg = "--" then (readValues name given rest).map .given
    else if arg = "--help" || arg.startsWith "-h" then some .help
    else
      match optionValue? "--store" (arg :: rest) with
      | some (value, rest) => do
        let store ← once given.store (← pathValue? (← value))
        readCommand name fuel { given with store := store } rest
      | none =>
        match if name = .commit then optionValue? "--mote" (arg :: rest) else none with
        | some (value, rest) => do
          let mote ← once given.mote (← value)
          readCommand name fuel { given with mote := mote } rest
        | none =>
          if arg = "--no-spelling" && name = .parse then
            if given.noSpelling then none
            else readCommand name fuel { given with noSpelling := true } rest
          else if isValue arg then do
            let given ← setFile name given arg
            readCommand name fuel given rest
          else none

/-- The command that was asked for, if nothing it needs is missing. -/
def command? (name : CommandName) (given : Given) : Option Command :=
  match name with
  | .parse => given.file.map fun file => .parse file given.noSpelling
  | .commit => do return .commit (← given.file) (← given.mote)
  | .speakers => some .speakers

/-- Help may be asked for about one command. -/
def readHelp : List String → Option Request
  | [] => some .help
  | [name] => if name = "help" || (CommandName.ofText? name).isSome then some .help else none
  | _ => none

/-- Read all arguments.  Nothing is read when they are wrong. -/
def readArguments (store : Option String) : Nat → List String → Option Request
  | 0, _ => none
  | _, [] => none
  | fuel + 1, arg :: rest =>
    if arg = "--help" || arg.startsWith "-h" then some .help
    else if arg = "--version" || arg.startsWith "-V" then some .version
    else if arg = "help" then readHelp rest
    else
      match optionValue? "--store" (arg :: rest) with
      | some (value, rest) => do
        let store ← once store (← pathValue? (← value))
        readArguments store fuel rest
      | none => do
        let name ← CommandName.ofText? arg
        match ← readCommand name (rest.length + 1) {} rest with
        | .help => some .help
        | .given given => do
          let command ← command? name given
          some (.run (given.store.or store) command)

def request? (args : List String) : Option Request :=
  readArguments none (args.length + 1) args

end CommandLine
end Comfort
