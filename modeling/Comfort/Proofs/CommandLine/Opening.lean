import Comfort.CommandLine.Run
import Comfort.Proofs.Config.Expand
import Comfort.Proofs.Store.Saving

/-!
Where a command looks for the store.

A command first says at which path it opens the store, and then works on what it finds there.  The
path in a configuration file is expanded when the file is loaded, and expanded once more when the
store is opened.  The second time does nothing unless a dollar sign, or a tilde in front, has come
out the first time: `opensStore_iff`.
-/

namespace Comfort
namespace CommandLine

variable {args : List String} {env : Environment} {fs : Files} {config : Config}
  {command : Command} {path : String}

/-! ## The log -/

/-- The log only grows. -/
theorem prefix_logged (s : List LogLine × Files) (level : Level) (source : Source)
    (message : String) : s.1 <+: (logged s level source message).1 :=
  List.prefix_append _ _

theorem prefix_foldl {α : Type} {step : List LogLine × Files → α → List LogLine × Files}
    (hstep : ∀ s a, s.1 <+: (step s a).1) (s : List LogLine × Files) (items : List α) :
    s.1 <+: (items.foldl step s).1 := by
  induction items generalizing s with
  | nil => exact List.prefix_refl _
  | cons a items ih => exact (hstep s a).trans (ih (step s a))

theorem prefix_loggedTrace (s : List LogLine × Files) (source : Source) (trace : List String) :
    s.1 <+: (loggedTrace s source trace).1 :=
  prefix_foldl (fun s entry => prefix_logged s .error source (traceLine entry)) s trace

theorem prefix_andThen {α β : Type} {s : List LogLine × Files} {o : Run α}
    {next : List LogLine × Files → α → Run β} (h : s.1 <+: o.state.1)
    (hnext : ∀ t a, t.1 <+: (next t a).state.1) : s.1 <+: (o.andThen next).state.1 := by
  cases o with
  | done t a => exact h.trans (hnext t a)
  | failed t e => exact h

theorem prefix_parseFile (file : String) (store : Store) (options : ParseOptions)
    (s : List LogLine × Files) : s.1 <+: (parseFile file store options s).state.1 := by
  unfold parseFile
  split
  · exact List.prefix_refl _
  · split
    · exact List.prefix_refl _
    · exact prefix_loggedTrace ..

theorem prefix_commit (file mote : String) (config : Config) (store : Store) (report : Report)
    (s : List LogLine × Files) : s.1 <+: (commit file mote config store report s).state.1 := by
  have hwarned : s.1 <+: (report.diagnostics.foldl (warn file) s).1 :=
    prefix_foldl (fun s _ => prefix_logged s ..) s _
  unfold commit
  dsimp only
  split
  · dsimp only [Outcome.state]
    exact hwarned.trans (List.prefix_append _ _)
  · dsimp only [Outcome.state]
    refine hwarned.trans (List.IsPrefix.trans ?_ (prefix_loggedTrace ..))
    exact List.prefix_append _ _

theorem prefix_speakers (config : Config) (store : Store) (s : List LogLine × Files) :
    s.1 <+: (speakers config store s).state.1 := by
  unfold speakers
  split <;> exact List.prefix_refl _

/-! ## Work on a store -/

/-- What a command does with its store. -/
def work (config : Config) (command : Command) (s : List LogLine × Files) (store : Store) :
    Run String :=
  match command with
  | .parse file noSpelling =>
    let options := parseOptions config
    let options := { options with checkSpelling := options.checkSpelling && !noSpelling }
    (parseFile file store options s).andThen fun s report =>
      .done s (report.toJson.pretty ++ "\n")
  | .commit file mote =>
    (parseFile file store (parseOptions config) s).andThen fun s report =>
      commit file mote config store report s
  | .speakers => speakers config store s

def conclude : Run String → Ending
  | .done s output => { exitCode := 0, output := output, log := s.1, files := s.2 }
  | .failed s failure =>
    { exitCode := failureCode, log := s.1, failure := some failure, files := s.2 }

theorem log_conclude (o : Run String) : (conclude o).log = o.state.1 := by
  cases o <;> rfl

theorem prefix_work (config : Config) (command : Command) (s : List LogLine × Files)
    (store : Store) : s.1 <+: (work config command s store).state.1 := by
  cases command with
  | parse file noSpelling =>
    exact prefix_andThen (prefix_parseFile ..) fun _ _ => List.prefix_refl _
  | commit file mote =>
    exact prefix_andThen (prefix_parseFile ..) fun _ _ => prefix_commit ..
  | speakers => exact prefix_speakers ..

theorem run_of_loadConfig {named : Option String}
    (hargs : request? args = some (.run named command))
    (hload : loadConfig env fs named = .ok config) :
    run args env fs = conclude ((openStore env config ([], fs)).andThen (work config command)) := by
  rw [run, hargs]
  dsimp only
  rw [hload]
  rfl

/-! ## The path of the store -/

def opening (path : String) : LogLine :=
  { level := .info, source := .commandLine, message := "Opening store " ++ path }

/-- The command announces the store at this path, and works with what is there. -/
structure OpensStore (args : List String) (env : Environment) (fs : Files) (path : String) :
    Prop where
  announced : (run args env fs).log.head? = some (opening path)
  refused : ∀ fault, Store.openFile fs path = .error fault →
    run args env fs
      = { exitCode := failureCode, log := [opening path],
          failure := some ("Failed to open store " ++ path), files := fs }
  opened : ∀ store, Store.openFile fs path = .ok store → ∃ config command,
    run args env fs = conclude (work config command ([opening path], fs) store)

theorem OpensStore.eq {other : String} (h : OpensStore args env fs path)
    (h' : OpensStore args env fs other) : path = other := by
  have hline := h.announced.symm.trans h'.announced
  have hmessage : "Opening store " ++ path = "Opening store " ++ other :=
    congrArg LogLine.message (Option.some.inj hline)
  exact (String.append_right_inj _).1 hmessage

theorem openStore_of_ok {store : Store} (log : List LogLine)
    (h : Store.openFile fs (storePath env config) = .ok store) :
    openStore env config (log, fs) = .done (log ++ [opening (storePath env config)], fs) store := by
  unfold openStore
  dsimp only [logged]
  rw [h]
  rfl

theorem openStore_of_error {fault : StoreError} (log : List LogLine)
    (h : Store.openFile fs (storePath env config) = .error fault) :
    openStore env config (log, fs)
      = .failed (log ++ [opening (storePath env config)], fs)
          ("Failed to open store " ++ storePath env config) := by
  unfold openStore
  dsimp only [logged]
  rw [h]
  rfl

theorem opensStore_of_loadConfig {named : Option String}
    (hargs : request? args = some (.run named command))
    (hload : loadConfig env fs named = .ok config) :
    OpensStore args env fs (storePath env config) := by
  have hrun := run_of_loadConfig hargs hload
  cases hfile : Store.openFile fs (storePath env config) with
  | error fault =>
    rw [openStore_of_error [] hfile] at hrun
    refine ⟨?_, fun _ _ => hrun, fun store hstore => ?_⟩
    · rw [hrun]
      rfl
    · rw [hfile] at hstore
      cases hstore
  | ok store =>
    rw [openStore_of_ok [] hfile] at hrun
    have hwork : run args env fs
        = conclude (work config command ([opening (storePath env config)], fs) store) := hrun
    refine ⟨?_, fun fault hfault => ?_, fun other hother => ?_⟩
    · obtain ⟨more, hmore⟩ :=
        prefix_work config command ([opening (storePath env config)], fs) store
      rw [hwork, log_conclude, ← hmore]
      rfl
    · rw [hfile] at hfault
      cases hfault
    · rw [hfile] at hother
      cases hother
      exact ⟨config, command, hwork⟩

theorem loadConfig_of_read (hread : Config.read fs (Config.path env) = .ok (some config)) :
    loadConfig env fs none
      = .ok { config with storePath := Config.expandPath env config.storePath } := by
  have hload : Config.load fs env (Config.path env)
      = .ok (some { config with storePath := Config.expandPath env config.storePath }) := by
    rw [Config.load, hread]
    rfl
  unfold loadConfig
  dsimp only
  rw [hload]

open Config (expandPath)

/-- The configured store is opened at its path expanded twice.  That is the path as it is when it
cannot be expanded.  It is the path expanded once when no dollar sign comes out of one of its pieces
or of the home directory, and no tilde comes to stand in front. -/
theorem opensStore_iff (hargs : request? args = some (.run none command))
    (hread : Config.read fs (Config.path env) = .ok (some config)) :
    (∀ path, OpensStore args env fs path ↔
      path = expandPath env (expandPath env config.storePath)) ∧
    (Expand.path? env config.storePath = none →
      expandPath env (expandPath env config.storePath) = config.storePath) ∧
    ∃ pieces, Expand.Reads config.storePath.toList pieces ∧
      ((∀ piece ∈ pieces, ∀ value, piece.value? env = some value → '$' ∉ value) →
        (∀ home, env.home? = some home → '$' ∉ home.toList) →
        (expandPath env config.storePath).toList.head? ≠ some '~' →
        expandPath env (expandPath env config.storePath) = expandPath env config.storePath) := by
  have hopens := opensStore_of_loadConfig hargs (loadConfig_of_read hread)
  refine ⟨fun path => ⟨fun h => h.eq hopens, ?_⟩, fun hnone => ?_, ?_⟩
  · rintro rfl
    exact hopens
  · have honce := Config.expandPath_of_none hnone
    rw [honce, honce]
  · obtain ⟨pieces, hreads⟩ := Expand.exists_reads config.storePath.toList
    refine ⟨pieces, hreads, fun hvalues hhome htilde => ?_⟩
    by_cases hnone : Expand.path? env config.storePath = none
    · have honce := Config.expandPath_of_none hnone
      rw [honce, honce]
    · rw [Config.expandPath_again (Config.notMem_expandPath hreads hnone hvalues hhome),
        Expand.tilde_of_head? htilde, String.ofList_toList]

/-! ## A dollar sign that is written twice -/

/-- A home directory, and a variable of the name that follows the dollar signs. -/
def duneEnvironment : Environment :=
  { bindings := [("HOME", "home"), ("A", "elsewhere")] }

def duneText : String :=
  "store_path = \"$$A/store.json\"\n"

def duneFiles : Files :=
  { nodes :=
      [(["home"], .directory), (["home", ".config"], .directory),
        (["home", ".config", "moteworks"], .directory),
        (["home", ".config", "moteworks", "config.toml"], .file duneText.toUTF8)] }

def duneConfig : Config :=
  { storePath := "$$A/store.json" }

theorem read_duneFiles :
    Config.read duneFiles (Config.path duneEnvironment) = .ok (some duneConfig) := by
  have hpath : Path.ofString? (Config.path duneEnvironment)
      = some { parts := ["home", ".config", "moteworks", "config.toml"], directory := false } := by
    decide +kernel
  have htext : duneFiles.readText?
      { parts := ["home", ".config", "moteworks", "config.toml"], directory := false }
      = some duneText := Store.fromUTF8?_toUTF8 duneText
  have hconfig : Config.ofText? duneText = some duneConfig := by
    decide +kernel
  have hexists : duneFiles.exists?
      { parts := ["home", ".config", "moteworks", "config.toml"], directory := false } = true := by
    decide +kernel
  unfold Config.read
  dsimp only
  rw [hpath, Option.any_some, hexists, Option.bind_some, htext]
  dsimp only
  rw [hconfig]
  rfl

theorem request?_dune : request? ["speakers"] = some (.run none .speakers) := by
  decide +kernel

theorem expandPath_dune :
    expandPath duneEnvironment duneConfig.storePath = "$A/store.json" ∧
    expandPath duneEnvironment "$A/store.json" = "elsewhere/store.json" := by
  decide +kernel

theorem opensStore_iff_dune :
    OpensStore ["speakers"] duneEnvironment duneFiles "elsewhere/store.json" := by
  refine ((opensStore_iff request?_dune read_duneFiles).1 _).2 ?_
  rw [expandPath_dune.1, expandPath_dune.2]

/-- The path expanded once is not where the store is opened. -/
theorem not_opensStore_once :
    ¬ ∀ (args : List String) (env : Environment) (fs : Files) (command : Command) (config : Config),
      request? args = some (.run none command) →
      Config.read fs (Config.path env) = .ok (some config) →
      OpensStore args env fs (expandPath env config.storePath) := by
  intro h
  have honce := h ["speakers"] duneEnvironment duneFiles .speakers duneConfig request?_dune
    read_duneFiles
  have htwice : OpensStore ["speakers"] duneEnvironment duneFiles (storePath duneEnvironment
      { duneConfig with storePath := expandPath duneEnvironment duneConfig.storePath }) :=
    opensStore_of_loadConfig request?_dune (loadConfig_of_read read_duneFiles)
  have heq := honce.eq htwice
  rw [storePath, expandPath_dune.1, expandPath_dune.2] at heq
  exact absurd heq (by decide)

end CommandLine
end Comfort
