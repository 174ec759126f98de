import Comfort.CommandLine.Arguments
import Comfort.Commit.Basic
import Comfort.Config.File
import Comfort.Report.Codec
import Comfort.Session.Document
import Comfort.Text.Terminal

/-!
What the commands do.

A command is a function of its arguments, the environment and the files.  It ends with an exit code,
and leaves behind what it printed, what it logged and the files as they are then.
-/

namespace Comfort
namespace CommandLine

inductive Level where
  | info
  | warn
  | error
  deriving DecidableEq

namespace Level

def name : Level → String
  | info => "INFO"
  | warn => "WARN"
  | error => "ERROR"

end Level

inductive Source where
  | commandLine
  | commit
  deriving DecidableEq

namespace Source

def name : Source → String
  | commandLine => "moteworks"
  | commit => "moteworks_engine::commit"

end Source

structure LogLine where
  level : Level
  source : Source
  message : String
  deriving DecidableEq

namespace LogLine

/-- The lines that the message takes up after its first one are indented. -/
def indented (cs : List Char) : List Char :=
  cs.flatMap fun c => if c = '\n' then '\n' :: List.replicate 4 ' ' else [c]

/-- What is written to the log, which a terminal may show. -/
def written (l : LogLine) : List Char :=
  let start := l.level.name ++ " " ++ l.source.name ++ ": "
  Text.Terminal.plain (indented (start ++ l.message).toList)

def text (l : LogLine) : String :=
  String.ofList (l.written.takeWhile (· != '\n'))

end LogLine

structure Ending where
  exitCode : Nat
  output : String := ""
  log : List LogLine := []
  /-- What is reported of a command that failed. -/
  failure : Option String := none
  files : Files

/-- A command that can log and fail. -/
abbrev Run (α : Type) := Outcome (List LogLine × Files) String α

def logged (s : List LogLine × Files) (level : Level) (source : Source) (message : String) :
    List LogLine × Files :=
  (s.1 ++ [{ level := level, source := source, message := message }], s.2)

/-- A trace is logged below the message it belongs to. -/
def traceLine (entry : String) : String :=
  "  " ++ entry

def loggedTrace (s : List LogLine × Files) (source : Source) (trace : List String) :
    List LogLine × Files :=
  trace.foldl (fun s entry => logged s .error source (traceLine entry)) s

/-! ## Configuration -/

/-- The configuration, in which the store that the arguments name replaces the configured one. -/
def loadConfig (env : Environment) (fs : Files) (store : Option String) : Except String Config :=
  let path := Config.path env
  match Config.load fs env path, store with
  | .error _, _ => .error ("Failed to load config file " ++ path)
  | .ok (some config), some store => .ok { config with storePath := store }
  | .ok (some config), none => .ok config
  | .ok none, some store => .ok { storePath := store }
  | .ok none, none =>
    .error ("No store path given: pass --store or create a config file at " ++ path)

def storePath (env : Environment) (config : Config) : String :=
  Config.expandPath env config.storePath

def parseOptions (config : Config) : ParseOptions :=
  { checkSpelling := config.checkSpelling
    labels := .ofList config.globalLabels
    questSchemaId := config.questSchemaId }

/-! ## Commands -/

def openStore (env : Environment) (config : Config) (s : List LogLine × Files) : Run Store :=
  let path := storePath env config
  let s := logged s .info .commandLine ("Opening store " ++ path)
  match Store.openFile s.2 path with
  | .ok store => .done s store
  | .error _ => .failed s ("Failed to open store " ++ path)

def parseFile (file : String) (store : Store) (options : ParseOptions) (s : List LogLine × Files) :
    Run Report :=
  match (Path.ofString? file).bind s.2.readText? with
  | none => .failed s ("Failed to read " ++ file)
  | some text =>
    match Document.parse text store options with
    | .ok report => .done s report
    | .error e => .failed (loggedTrace s .commandLine e.trace) ("Failed to parse " ++ file)

/-- Log what is wrong with a document that is to be committed. -/
def warn (file : String) (s : List LogLine × Files) (d : Diagnostic) : List LogLine × Files :=
  logged s .warn .commandLine
    (file ++ ":" ++ toString d.range.start ++ ".." ++ toString d.range.stop ++ ": " ++ d.message)

def commit (file mote : String) (config : Config) (store : Store) (report : Report)
    (s : List LogLine × Files) : Run String :=
  let s := report.diagnostics.foldl (warn file) s
  let count := toString report.record.stages.length
  match Commit.run report.record mote config.comfortSchemaId store s.2 with
  | .done t _ =>
    let s := logged (s.1, t.files) .info .commit
      ("committed " ++ mote ++ " (" ++ count ++ " stages)")
    .done s
      ("Committed " ++ count ++ " stage(s) into " ++ mote ++ " ("
        ++ toString report.diagnostics.length ++ " diagnostic(s))\n")
  | .failed t e =>
    let s := logged (s.1, t.files) .error .commit
      ("commit of " ++ mote ++ " failed: " ++ e.message)
    .failed (loggedTrace s .commit t.trace) ("Failed to commit " ++ file ++ " into " ++ mote)

def speakers (config : Config) (store : Store) (s : List LogLine × Files) : Run String :=
  match Speaker.allowed store config.questSchemaId with
  | .error e => .failed s e.message
  | .ok speakers =>
    .done s (String.join (speakers.map fun speaker => speaker.id ++ "\t" ++ speaker.label ++ "\n"))

def runCommand (env : Environment) (config : Config) (command : Command)
    (s : List LogLine × Files) : Run String :=
  (openStore env config s).andThen fun s store =>
    match command with
    | .parse file noSpelling =>
      let options := parseOptions config
      let options := { options with checkSpelling := options.checkSpelling && !noSpelling }
      (parseFile file store options s).andThen fun s report =>
        .done s (report.toJson.pretty ++ "\n")
    | .commit file mote =>
      (parseFile file store (parseOptions config) s).andThen fun s report =>
        commit file mote config store report s
    | .speakers => speakers config store s

def failureCode : Nat := 1

def usageCode : Nat := 2

def helpText : String :=
  "Parse comfort documents and commit them into a mote store.\n\n"
    ++ "Usage: moteworks [OPTIONS] <COMMAND>\n\n"
    ++ "Commands:\n"
    ++ "  parse <FILE> [--no-spelling]\n"
    ++ "  commit <FILE> --mote <MOTE>\n"
    ++ "  speakers\n\n"
    ++ "Options:\n"
    ++ "  --store <STORE>\n"
    ++ "  --help\n"
    ++ "  --version\n"

def versionText : String :=
  "moteworks 0.1.0\n"

def run (args : List String) (env : Environment) (fs : Files) : Ending :=
  match request? args with
  | none => { exitCode := usageCode, files := fs }
  | some .help => { exitCode := 0, output := helpText, files := fs }
  | some .version => { exitCode := 0, output := versionText, files := fs }
  | some (.run store command) =>
    match loadConfig env fs store with
    | .error failure => { exitCode := failureCode, failure := some failure, files := fs }
    | .ok config =>
      match runCommand env config command ([], fs) with
      | .done s output => { exitCode := 0, output := output, log := s.1, files := s.2 }
      | .failed s failure =>
        { exitCode := failureCode, log := s.1, failure := some failure, files := s.2 }

end CommandLine
end Comfort
