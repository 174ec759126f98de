import Comfort.Files.Path
import Comfort.Outcome

/-!
Directories and files.

`Files` is the part of a file system that a command can reach: what stands at each place, the
working directory being at the empty one.  A step that fails changes nothing, but creating several
directories takes several steps.  Beside the reasons that show in the tree, such as a file where a
directory is needed, the system may refuse a step for reasons of its own, such as a full disk.
-/

namespace Comfort

inductive FileNode where
  | directory
  | file (content : ByteArray)

inductive FileStep where
  | createDirectory
  | write
  | rename
  deriving DecidableEq

structure Files where
  nodes : List (List String × FileNode)
  refuses : FileStep → Bool := fun _ => false

namespace Files

def empty : Files :=
  { nodes := [] }

def find? (path : List String) : List (List String × FileNode) → Option FileNode
  | [] => none
  | (p, node) :: rest => if p = path then some node else find? path rest

/-- Whether a place is the root of absolute paths, the working directory or one above it.  They
always exist. -/
def isBase (place : List String) : Bool :=
  place = ["/"] || place.all (· == "..")

def node? (fs : Files) (place : List String) : Option FileNode :=
  if isBase place then some .directory else find? place fs.nodes

def remove (fs : Files) (path : List String) : Files :=
  { fs with nodes := fs.nodes.filter fun e => e.1 != path }

def put (fs : Files) (path : List String) (node : FileNode) : Files :=
  { fs with nodes := (fs.remove path).nodes ++ [(path, node)] }

def isDirectory (fs : Files) (place : List String) : Bool :=
  match fs.node? place with
  | some .directory => true
  | _ => false

/-- The directory above a place.  The root is above itself, and a directory above the working
directory has two dots for each level. -/
def above (place : List String) : List String :=
  if place = ["/"] then place
  else if isBase place then place ++ [".."]
  else place.dropLast

/-- The place that a part of a path leads to. -/
def next (here : List String) (part : String) : List String :=
  if part = ".." then above here else here ++ [part]

/-- Follow the parts of a path from `here`.  All but the last of them have to be directories. -/
def follow? (fs : Files) (here : List String) : List String → Option (List String)
  | [] => some here
  | part :: rest =>
    if fs.isDirectory here && Path.isPart part then fs.follow? (next here part) rest else none

/-- Where a path leads, which may be a place where nothing stands. -/
def place? (fs : Files) (path : Path) : Option (List String) := do
  if !Path.isPassable path.parts then none
  let place ← fs.follow? [] path.parts
  if path.directory && !fs.isDirectory place then none else some place

def exists? (fs : Files) (path : Path) : Bool :=
  ((fs.place? path).bind fs.node?).isSome

def read? (fs : Files) (path : Path) : Option ByteArray :=
  match (fs.place? path).bind fs.node? with
  | some (.file content) => some content
  | _ => none

/-- The text of a file, if it is text. -/
def readText? (fs : Files) (path : Path) : Option String :=
  (fs.read? path).bind String.fromUTF8?

/-- Create the directories of a path that are missing, following it from `here`.  Those that were
created before a step failed are kept. -/
def createFrom (fs : Files) (here : List String) : List String → Outcome Files FileStep Unit
  | [] => .done fs ()
  | part :: rest =>
    let there := next here part
    match fs.node? there with
    | some .directory => fs.createFrom there rest
    | some (.file _) => .failed fs .createDirectory
    | none =>
      if fs.refuses .createDirectory || !Path.isPart part then .failed fs .createDirectory
      else (fs.put there .directory).createFrom there rest

def createDirectories (fs : Files) (parts : List String) : Outcome Files FileStep Unit :=
  if Path.isPassable parts then fs.createFrom [] parts else .failed fs .createDirectory

/-- A place where a file may stand: in a directory, and not one itself. -/
def filePlace? (fs : Files) (path : Path) : Option (List String) := do
  let place ← fs.place? path
  if fs.isDirectory (above place) && !fs.isDirectory place then some place else none

def write (fs : Files) (path : Path) (content : ByteArray) : Outcome Files FileStep Unit :=
  match fs.filePlace? path with
  | none => .failed fs .write
  | some place =>
    if fs.refuses .write then .failed fs .write else .done (fs.put place (.file content)) ()

/-- Move a file, replacing the one that stands at the new place. -/
def rename (fs : Files) (source target : Path) : Outcome Files FileStep Unit :=
  match fs.place? source, fs.filePlace? target with
  | some source, some target =>
    match fs.node? source with
    | some (.file content) =>
      if fs.refuses .rename then .failed fs .rename
      else .done ((fs.remove source).put target (.file content)) ()
    | _ => .failed fs .rename
  | _, _ => .failed fs .rename

/-! ## Laying out -/

/-- Add a directory, with all directories above it. -/
def addDirectory (fs : Files) (path : Path) : Files :=
  (fs.createDirectories path.parts).state

/-- Add a file, with all directories above it. -/
def addFile (fs : Files) (path : Path) (content : ByteArray) : Files :=
  ((fs.createDirectories path.parentParts).andThen fun fs _ => fs.write path content).state

end Files
end Comfort
