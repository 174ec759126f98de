import Comfort.CommandLine.Run

/-!
The program.

It looks up what the command can reach, runs the command on that, and carries the changes out.  When
the system refuses one of them, the command is run again on files that refuse the same step, and so
it fails the way it should.
-/

namespace Comfort
namespace Program

/-! ## Looking up -/

def bindings (names : List String) : IO (List (String × String)) := do
  (names.map Environment.setName).filterMapM fun name => do
    return (← IO.getEnv name).map fun value => (name, value)

def placeText (place : List String) : String :=
  match place with
  | [] => "."
  | "/" :: rest => "/" ++ "/".intercalate rest
  | parts => "/".intercalate parts

def stands (path : String) : IO Bool := do
  try
    let _ ← IO.FS.realPath path
    return true
  catch _ => return false

/-- What stands at a place.  A file that cannot be read counts as one that holds no text. -/
def look (place : List String) : IO (Option FileNode) := do
  let path := placeText place
  if !(← stands path) then return none
  if ← stands (path ++ "/.") then return some .directory
  try
    return some (.file (← IO.FS.readBinFile path))
  catch _ => return some (.file ⟨#[0xff]⟩)

/-- Add what stands at the places that a path leads through from `here`. -/
def gather (fs : Files) (here : List String) : List String → IO Files
  | [] => return fs
  | part :: rest => do
    let there := Files.next here part
    match ← look there with
    | some node => gather (fs.put there node) there rest
    | none => gather fs there rest

def gatherPath (fs : Files) (path : String) : IO Files :=
  match Path.ofString? path with
  | some path => gather fs [] path.parts
  | none => return fs

/-- Add the file of a store, and the one that it is written to first. -/
def gatherStore (fs : Files) (path : String) : IO Files := do
  let fs ← gatherPath fs path
  match Path.ofString? path with
  | some path => gather fs [] (Store.temporary path).parts
  | none => return fs

/-! ## Carrying out -/

def attempt (step : FileStep) (action : IO Unit) : IO (Option FileStep) := do
  try
    action
    return none
  catch _ => return some step

/-- Bring a place to what should stand there.  The step that was refused is given back. -/
def settle (place : List String) : FileNode → IO (Option FileStep)
  | .directory => attempt .createDirectory (IO.FS.createDir (placeText place))
  | .file content => do
    let temporary := placeText (Store.temporary { parts := place, directory := false }).parts
    match ← attempt .write (IO.FS.writeBinFile temporary content) with
    | none => attempt .rename (IO.FS.rename temporary (placeText place))
    | refused => return refused

/-- Whether a place already has what should stand there. -/
def isSettled : Option FileNode → FileNode → Bool
  | some .directory, .directory => true
  | some (.file old), .file new => old.data == new.data
  | _, _ => false

def carryOut (old : Files) : List (List String × FileNode) → IO (Option FileStep)
  | [] => return none
  | (place, node) :: rest => do
    if isSettled (old.node? place) node then carryOut old rest
    else
      match ← settle place node with
      | none => carryOut old rest
      | refused => return refused

/-! ## Running -/

def commandFiles : CommandLine.Command → List String
  | .parse file _ => [file]
  | .commit file _ => [file]
  | .speakers => []

/-- The path of the store as it is named, by the arguments or else by the configuration. -/
def namedStore (fs : Files) (env : Environment) : Option String → String
  | some store => store
  | none =>
    match Config.read fs (Config.path env) with
    | .ok (some config) => config.storePath
    | _ => ""

/-- Look up the environment and the files that a command can reach.  The path of a store can come
out of a variable and name further ones. -/
def reach (store : Option String) (command : CommandLine.Command) : IO (Environment × Files) := do
  let env : Environment := { bindings := ← bindings ["HOME"] }
  let fs ← (Config.path env :: commandFiles command).foldlM gatherPath .empty
  let named ← bindings (Expand.names (namedStore fs env store).toList)
  let env : Environment := { bindings := env.bindings ++ named }
  match CommandLine.loadConfig env fs store with
  | .error _ => return (env, fs)
  | .ok config =>
    let further ← bindings (Expand.names config.storePath.toList)
    let env : Environment := { bindings := env.bindings ++ further }
    return (env, ← gatherStore fs (CommandLine.storePath env config))

def report (ending : CommandLine.Ending) : IO UInt32 := do
  ending.log.forM fun line => IO.eprintln (String.ofList line.written)
  IO.print ending.output
  if ending.exitCode = CommandLine.usageCode then IO.eprint CommandLine.helpText
  ending.failure.forM fun failure => IO.eprintln ("Error: " ++ failure)
  return ending.exitCode.toUInt32

def run (args : List String) : IO UInt32 := do
  match CommandLine.request? args with
  | some (.run store command) =>
    let (env, fs) ← reach store command
    let ending := CommandLine.run args env fs
    match ← carryOut fs ending.files.nodes with
    | none => report ending
    | some step => report (CommandLine.run args env { fs with refuses := (· == step) })
  | _ => report (CommandLine.run args { bindings := [] } .empty)

end Program
end Comfort

def main (args : List String) : IO UInt32 :=
  Comfort.Program.run args
