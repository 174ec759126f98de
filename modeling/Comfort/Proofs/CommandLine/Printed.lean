import Comfort.Proofs.CommandLine.Opening
import Comfort.Proofs.Document.Ranges
import Comfort.Proofs.Report.Written

/-!
Reports that are printed and read again.

A report and a record are read back from their text as from their written form.  What the command
prints on a document is the text of the report on it, so the record in that text is the record of
the document: `read_written`.
-/

namespace Comfort

open Json (natLimit)

/-! ## Texts -/

namespace Record

def ofText? (text : String) : Option Record :=
  (Json.read? text.toList).bind ofJson?

theorem ofText?_pretty (r : Record) : ofText? r.toJson.pretty = some r := by
  have hread : Json.read? r.toJson.pretty.toList = some r.toJson :=
    Json.readWithin?_pretty r.wholeNumbers_toJson (Json.Shape.keeps_whole _)
  rw [ofText?, hread, Option.bind_some, r.ofJson?_toJson]

end Record

namespace Report

def ofText? (text : String) : Option Report :=
  (Json.read? text.toList).bind ofJson?

variable {r : Report}

theorem ofText?_pretty (h : r.Fits) : ofText? r.toJson.pretty = some r := by
  have hread : Json.read? r.toJson.pretty.toList = some r.toJson :=
    Json.readWithin?_pretty (wholeNumbers_toJson h) (Json.Shape.keeps_whole _)
  rw [ofText?, hread, Option.bind_some, r.ofJson?_toJson, if_pos h]

theorem ofText?_prettyLine (h : r.Fits) : ofText? (r.toJson.pretty ++ "\n") = some r := by
  rw [ofText?, Json.read?_prettyLine (wholeNumbers_toJson h), Option.bind_some, r.ofJson?_toJson,
    if_pos h]

end Report

/-- Offsets into a document can be read if its length can. -/
theorem Document.fits_of_parse {text : String} {store : Store} {options : ParseOptions}
    {report : Report} (h : parse text store options = .ok report)
    (hlength : Text.byteLength text.toList < natLimit) : report.Fits := by
  obtain ⟨p, hp, rfl⟩ := run_of_parse h
  have hanchored : p.report.Anchored (lines text.toList) :=
    Pass.anchored_run (Report.anchored_empty _) (fun _ hl => hl) hp
  intro e he
  obtain ⟨horder, hbound, -⟩ := Report.checkRange_of_inALine (hanchored.inALine he) e.1
  have hstop : e.2.stop < natLimit := Nat.lt_of_le_of_lt hbound hlength
  exact ⟨Nat.lt_of_le_of_lt horder hstop, hstop⟩

namespace CommandLine

variable {args : List String} {env : Environment} {fs : Files} {file : String} {noSpelling : Bool}

/-! ## What is printed -/

theorem exists_done_of_exitCode {o : Run String} (h : (conclude o).exitCode = 0) :
    ∃ s output, o = .done s output ∧ (conclude o).output = output := by
  cases o with
  | done s output => exact ⟨s, output, rfl, rfl⟩
  | failed s failure => cases h

theorem openStore_eq_done {config : Config} {s t : List LogLine × Files} {store : Store}
    (h : openStore env config s = .done t store) : t.2 = s.2 := by
  unfold openStore at h
  dsimp only at h
  split at h
  · cases h
    rfl
  · cases h

theorem parseFile_eq_done {store : Store} {options : ParseOptions} {s t : List LogLine × Files}
    {report : Report} (h : parseFile file store options s = .done t report) :
    ∃ text, (Path.ofString? file).bind s.2.readText? = some text ∧
      Document.parse text store options = .ok report := by
  unfold parseFile at h
  split at h
  · cases h
  · next text htext =>
    split at h
    · next report' hparse =>
      cases h
      exact ⟨text, htext, hparse⟩
    · cases h

/-- The command that parses a document prints the report on it, when it ends well. -/
theorem exists_report_of_run {named : Option String}
    (hargs : request? args = some (.run named (.parse file noSpelling)))
    (hdone : (run args env fs).exitCode = 0) :
    ∃ store options text report, (Path.ofString? file).bind fs.readText? = some text ∧
      Document.parse text store options = .ok report ∧
      (run args env fs).output = report.toJson.pretty ++ "\n" := by
  cases hload : loadConfig env fs named with
  | error failure =>
    rw [run, hargs] at hdone
    dsimp only at hdone
    rw [hload] at hdone
    cases hdone
  | ok config =>
    have hrun := run_of_loadConfig hargs hload
    rw [hrun] at hdone ⊢
    obtain ⟨s, output, hout, houtput⟩ := exists_done_of_exitCode hdone
    obtain ⟨t, store, hopen, hwork⟩ := Outcome.andThen_eq_done.1 hout
    obtain ⟨u, report, hparse, hprint⟩ := Outcome.andThen_eq_done.1 hwork
    obtain ⟨text, htext, hreport⟩ := parseFile_eq_done hparse
    cases hprint
    rw [openStore_eq_done hopen] at htext
    exact ⟨store, _, text, report, htext, hreport, houtput⟩

/-- A report whose offsets can be read comes back from what it is written as, and so does every
record.  What the command prints on a document of a readable length reads as the report on it, and
the record in what is printed reads as the record of the document. -/
theorem read_written :
    (∀ r : Report, r.Fits →
      Report.ofJson? r.toJson = some r ∧ Report.ofText? r.toJson.pretty = some r) ∧
    (∀ (j : Json) (r : Record), Record.ofJson? j = some r →
      Record.ofJson? r.toJson = some r ∧ Record.ofText? r.toJson.pretty = some r) ∧
    ∀ (args : List String) (env : Environment) (fs : Files) (named : Option String) (file : String)
      (noSpelling : Bool), request? args = some (.run named (.parse file noSpelling)) →
      (run args env fs).exitCode = 0 →
      (∀ text, (Path.ofString? file).bind fs.readText? = some text →
        Text.byteLength text.toList < natLimit) →
      ∃ store options text report, (Path.ofString? file).bind fs.readText? = some text ∧
        Document.parse text store options = .ok report ∧
        Report.ofText? (run args env fs).output = some report ∧
        ((Json.read? (run args env fs).output.toList).bind fun j =>
          (j.field? "parsed").bind Record.ofJson?) = some report.record := by
  refine ⟨fun r h => ⟨?_, Report.ofText?_pretty h⟩,
    fun j r _ => ⟨r.ofJson?_toJson, r.ofText?_pretty⟩, ?_⟩
  · rw [r.ofJson?_toJson, if_pos h]
  · intro args env fs named file noSpelling hargs hdone hlength
    obtain ⟨store, options, text, report, htext, hparse, hprint⟩ := exists_report_of_run hargs hdone
    have hfits : report.Fits := Document.fits_of_parse hparse (hlength text htext)
    refine ⟨store, options, text, report, htext, hparse, ?_, ?_⟩
    · rw [hprint, Report.ofText?_prettyLine hfits]
    · rw [hprint, Json.read?_prettyLine (Report.wholeNumbers_toJson hfits), Option.bind_some]
      exact report.record.ofJson?_toJson

/-! ## A report that is printed -/

def fernText : String :=
  "Name: Fern\nStage: One #s1\n> Rustle. #e1\n"

def fernFiles : Files :=
  { nodes := [(["fern.txt"], .file fernText.toUTF8)] }

def fernArguments : List String :=
  ["--store", "store.json", "parse", "fern.txt"]

def fernConfig : Config :=
  { storePath := "store.json" }

theorem request?_fern :
    request? fernArguments = some (.run (some "store.json") (.parse "fern.txt" false)) := by
  decide +kernel

theorem loadConfig_fern :
    loadConfig { bindings := [] } fernFiles (some "store.json") = .ok fernConfig := by
  rfl

theorem readText?_fern : (Path.ofString? "fern.txt").bind fernFiles.readText? = some fernText := by
  have hpath : Path.ofString? "fern.txt" = some { parts := ["fern.txt"], directory := false } := by
    decide +kernel
  rw [hpath]
  exact Store.fromUTF8?_toUTF8 fernText

/-- The store that is opened where there is no file yet. -/
def fernStore : Store :=
  { backing := some "store.json" }

def fernRecord : Record :=
  { name := some "Fern"
    stages :=
      [{ id := some "s1", name := "One", elements :=
          [{ style := .text, id := some "e1", speaker := none, speakerUnknown := false,
             text := "Rustle." }] }] }

theorem parse_fernText :
    (Document.parse fernText fernStore (parseOptions fernConfig)).map Report.record
      = .ok fernRecord := by
  rw [Document.parse, Document.parseIn_eq_run]
  decide +kernel

theorem exitCode_fern : (run fernArguments { bindings := [] } fernFiles).exitCode = 0 := by
  have hopen : openStore { bindings := [] } fernConfig ([], fernFiles)
      = .done ([opening "store.json"], fernFiles) fernStore := rfl
  have hwork (s : List LogLine × Files) : work fernConfig (.parse "fern.txt" false) s fernStore
      = (parseFile "fern.txt" fernStore (parseOptions fernConfig) s).andThen fun s report =>
          .done s (report.toJson.pretty ++ "\n") := rfl
  rw [run_of_loadConfig request?_fern loadConfig_fern, hopen, Outcome.andThen_done, hwork,
    parseFile, readText?_fern]
  have hparse := parse_fernText
  cases hr : Document.parse fernText fernStore (parseOptions fernConfig) with
  | error e =>
    rw [hr] at hparse
    cases hparse
  | ok report =>
    dsimp only
    rw [hr]
    rfl

/-- A report with a note of each kind. -/
def fernReport : Report :=
  { diagnostics := [⟨"Unknown speaker: Moss", ⟨14, 18⟩⟩]
    hovers := [⟨"Fern (npc_fern)", ⟨0, 4⟩⟩]
    edits := [⟨⟨10, 10⟩, " #s1"⟩]
    completions := [⟨⟨14, 18⟩, ["Fern", "Nora"]⟩]
    words := [⟨"Rustle", ⟨21, 27⟩⟩]
    record := fernRecord }

/-- A record that leaves out what may be absent, and has a field that is not known. -/
def sparseRecord : Json :=
  .obj [("stages", .arr []), ("comments", .arr [.str "dry"]), ("kind", .null)]

theorem read_written_fern :
    Report.ofText? fernReport.toJson.pretty = some fernReport ∧
    Record.ofText? (Record.toJson { comments := ["dry"] }).pretty = some { comments := ["dry"] } ∧
    ∃ report, Report.ofText? (run fernArguments { bindings := [] } fernFiles).output
      = some report := by
  obtain ⟨hreports, hrecords, hprinted⟩ := read_written
  have hsparse : Record.ofJson? sparseRecord = some { comments := ["dry"] } := rfl
  obtain ⟨_, _, _, report, _, _, hreport, _⟩ :=
    hprinted fernArguments { bindings := [] } fernFiles (some "store.json") "fern.txt" false
      request?_fern exitCode_fern fun text htext => by
        rw [readText?_fern] at htext
        cases htext
        decide
  exact ⟨(hreports fernReport (by decide)).2, (hrecords sparseRecord _ hsparse).2, report, hreport⟩

end CommandLine
end Comfort
