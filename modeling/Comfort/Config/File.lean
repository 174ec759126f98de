import Comfort.Config.Basic
import Comfort.Config.Expand
import Comfort.Files.Basic

/-!
Configurations in files.

The path of the store is kept as it is written, and expanded when the configuration is loaded.
-/

namespace Comfort

inductive ConfigError where
  /-- The file could not be read, or is no text. -/
  | read
  /-- The text is no configuration. -/
  | parse
  deriving DecidableEq

namespace Config

def path (env : Environment) : String :=
  String.ofList (Expand.tilde env "~/.config/moteworks".toList) ++ "/config.toml"

/-- Expand a path.  One that cannot be expanded is used as it is. -/
def expandPath (env : Environment) (path : String) : String :=
  (Expand.path? env path).getD path

/-- Read a configuration as it is written.  Where there is no file there is no configuration. -/
def read (fs : Files) (path : String) : Except ConfigError (Option Config) :=
  let file := Path.ofString? path
  if !file.any fs.exists? then .ok none
  else
    match file.bind fs.readText? with
    | none => .error .read
    | some text =>
      match ofText? text with
      | none => .error .parse
      | some c => .ok (some c)

/-- Load a configuration, expanding the path of its store. -/
def load (fs : Files) (env : Environment) (path : String) : Except ConfigError (Option Config) :=
  (read fs path).map fun config =>
    config.map fun c => { c with storePath := expandPath env c.storePath }

/-- Save a configuration, creating the directory of its file. -/
def save (c : Config) (fs : Files) (path : String) : Outcome Files FileStep Unit :=
  match Path.ofString? path with
  | none => .failed fs .write
  | some file =>
    (fs.createDirectories file.parentParts).andThen fun fs _ => fs.write file c.text.toUTF8

end Config
end Comfort
